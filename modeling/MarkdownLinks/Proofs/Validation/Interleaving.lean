import MarkdownLinks.Proofs.Inspection.Plan
import MarkdownLinks.Proofs.Validation.Complete

/-!
# Runs with many workers

The documents of a run are inspected by workers that take turns in any order.  All that they share is
the cache.  A worker looks into it, reads the document that it asks for if nothing is kept for it, and
keeps the slugs afterwards.  Other workers take turns between these steps, so that several may read
one document and keep its slugs.  A run ends when all workers are done, or once one of them has
failed, whatever the others are doing.

What a worker comes to depends on its document alone, and no step of any worker changes it.  So in
whatever order the turns are taken, a run that ends with a report ends with the one that it has when
documents are inspected one after the other.  If it fails, it is for a reason for which some document
fails alone, and there is no report in that order either.
-/

namespace MarkdownLinks

namespace Inspector

/-- The verdict on a link when nothing is kept. -/
def fresh (inspector : Inspector) (document : Path) (link : Link) : Except ReadFault Verdict :=
  (inspector.check .empty document link).result

/-- The verdicts that there are, and those on the links that are left. -/
def rest (inspector : Inspector) (document : Path) (verdicts : List Verdict) :
    List Link → Except ReadFault (List Verdict)
  | [] => .ok verdicts
  | link :: links => do
    let verdict ← inspector.fresh document link
    inspector.rest document (verdicts ++ [verdict]) links

/-- The verdicts on the links of a document when nothing is kept, whatever is read for it. -/
def alone (inspector : Inspector) (document : Path) : Except ReadFault (List Verdict) := do
  let text ← Document.read inspector.disk document
  inspector.rest document [] (Link.scan text)

variable {inspector : Inspector} {document asked : Path} {link : Link} {links : List Link}
  {verdict : Verdict} {verdicts : List Verdict} {fault : ReadFault} {conclude : TextSet → Verdict}

theorem fresh_of_settled {probed : List Text}
    (planned : inspector.plan document link = .settled verdict probed) :
    inspector.fresh document link = .ok verdict := by
  rw [fresh, check_eq_carryOut, planned]
  rfl

theorem fresh_of_asking (planned : inspector.plan document link = .asking asked conclude) :
    inspector.fresh document link =
      ((Document.read inspector.disk asked).map Heading.slugs).map conclude := by
  rw [fresh, check_eq_carryOut, planned, ← AnchorCache.slugs_empty]
  rfl

theorem rest_cons_of_ok (checked : inspector.fresh document link = .ok verdict) :
    inspector.rest document verdicts (link :: links) =
      inspector.rest document (verdicts ++ [verdict]) links := by
  rw [rest, checked]
  rfl

theorem rest_cons_of_error (failed : inspector.fresh document link = .error fault) :
    inspector.rest document verdicts (link :: links) = .error fault := by
  rw [rest, failed]
  rfl

theorem rest_eq_ok_iff {all : List Verdict} :
    inspector.rest document verdicts links = .ok all ↔
      (∀ link ∈ links, ∃ verdict, inspector.fresh document link = .ok verdict) ∧
        all = verdicts ++ links.map (inspector.verdict document) := by
  induction links generalizing verdicts with
  | nil => simp [rest, eq_comm]
  | cons link links ih =>
    cases checked : inspector.fresh document link with
    | error fault => simp [rest_cons_of_error checked, checked]
    | ok verdict =>
      rw [rest_cons_of_ok checked, ih, List.map_cons, verdict_eq_of_check checked]
      simp [checked]

/-- A document comes to verdicts alone exactly if it can be inspected, and then to those of its
sheet. -/
theorem alone_eq_ok_iff : inspector.alone document = .ok verdicts ↔
    inspector.IsInspectable document ∧
      verdicts = (inspector.sheet document).entries.map Prod.snd := by
  rw [alone, IsInspectable, sheet]
  cases read : Document.read inspector.disk document with
  | error fault => simp [bind, Except.bind]
  | ok text =>
    simp only [bind, Except.bind, rest_eq_ok_iff, List.nil_append, Except.ok.injEq,
      exists_eq_left', List.map_map]
    rfl

end Inspector

/-- Where the inspection of a document stands. -/
inductive Worker where
  | waiting
  | checking (verdicts : List Verdict) (links : List Link)
  /-- Nothing was kept for the document that is asked for. -/
  | reading (verdicts : List Verdict) (asked : Path) (conclude : TextSet → Verdict)
    (links : List Link)
  /-- The document that was asked for is read, and its slugs are not kept yet. -/
  | keeping (verdicts : List Verdict) (asked : Path) (slugs : TextSet)
    (conclude : TextSet → Verdict) (links : List Link)
  | done (verdicts : List Verdict)
  | failed (fault : ReadFault)

namespace Worker

/-- What the worker on a document does in one step, and the cache after it. -/
inductive Step (inspector : Inspector) (document : Path) (cache : AnchorCache) :
    Worker → Worker → AnchorCache → Prop
  | start {text : Text} (read : Document.read inspector.disk document = .ok text) :
    Step inspector document cache .waiting (.checking [] (Link.scan text)) cache
  | refuse {fault : ReadFault} (read : Document.read inspector.disk document = .error fault) :
    Step inspector document cache .waiting (.failed fault) cache
  | settle {verdicts : List Verdict} {link : Link} {links : List Link} {verdict : Verdict}
      {probed : List Text} (planned : inspector.plan document link = .settled verdict probed) :
    Step inspector document cache (.checking verdicts (link :: links))
      (.checking (verdicts ++ [verdict]) links) cache
  | find {verdicts : List Verdict} {link : Link} {links : List Link} {asked : Path}
      {conclude : TextSet → Verdict} {slugs : TextSet}
      (planned : inspector.plan document link = .asking asked conclude)
      (found : cache.find? asked = some slugs) :
    Step inspector document cache (.checking verdicts (link :: links))
      (.checking (verdicts ++ [conclude slugs]) links) cache
  | miss {verdicts : List Verdict} {link : Link} {links : List Link} {asked : Path}
      {conclude : TextSet → Verdict}
      (planned : inspector.plan document link = .asking asked conclude)
      (notFound : cache.find? asked = none) :
    Step inspector document cache (.checking verdicts (link :: links))
      (.reading verdicts asked conclude links) cache
  | read {verdicts : List Verdict} {asked : Path} {conclude : TextSet → Verdict}
      {links : List Link} {text : Text} (read : Document.read inspector.disk asked = .ok text) :
    Step inspector document cache (.reading verdicts asked conclude links)
      (.keeping verdicts asked (Heading.slugs text) conclude links) cache
  | fail {verdicts : List Verdict} {asked : Path} {conclude : TextSet → Verdict}
      {links : List Link} {fault : ReadFault}
      (read : Document.read inspector.disk asked = .error fault) :
    Step inspector document cache (.reading verdicts asked conclude links) (.failed fault) cache
  | keep {verdicts : List Verdict} {asked : Path} {slugs : TextSet}
      {conclude : TextSet → Verdict} {links : List Link} :
    Step inspector document cache (.keeping verdicts asked slugs conclude links)
      (.checking (verdicts ++ [conclude slugs]) links) (cache.add asked slugs)
  | finish {verdicts : List Verdict} :
    Step inspector document cache (.checking verdicts []) (.done verdicts) cache

/-- What the worker on a document comes to if nothing is kept for it from now on. -/
def comesTo (inspector : Inspector) (document : Path) : Worker → Except ReadFault (List Verdict)
  | .waiting => inspector.alone document
  | .checking verdicts links => inspector.rest document verdicts links
  | .reading verdicts asked conclude links => do
    let text ← Document.read inspector.disk asked
    inspector.rest document (verdicts ++ [conclude (Heading.slugs text)]) links
  | .keeping verdicts _ slugs conclude links =>
    inspector.rest document (verdicts ++ [conclude slugs]) links
  | .done verdicts => .ok verdicts
  | .failed fault => .error fault

/-- The verdicts that a worker has so far. -/
def verdicts : Worker → List Verdict
  | .waiting => []
  | .checking verdicts _ => verdicts
  | .reading verdicts _ _ _ => verdicts
  | .keeping verdicts _ _ _ _ => verdicts
  | .done verdicts => verdicts
  | .failed _ => []

/-- Whether what a worker is going to keep are the slugs of the document that it asked for, by a path
that the cache can tell from others. -/
def Holds (disk : Disk) : Worker → Prop
  | .reading _ asked _ _ => asked.IsTidy
  | .keeping _ asked slugs _ _ =>
    asked.IsTidy ∧ ∃ text, Document.read disk asked = .ok text ∧ slugs = Heading.slugs text
  | _ => True

/-- How many steps the worker on a document can still take at most. -/
def work (inspector : Inspector) (document : Path) : Worker → Nat
  | .waiting =>
    match Document.read inspector.disk document with
    | .ok text => 3 * (Link.scan text).length + 2
    | .error _ => 1
  | .checking _ links => 3 * links.length + 1
  | .reading _ _ _ links => 3 * links.length + 3
  | .keeping _ _ _ _ links => 3 * links.length + 2
  | .done _ => 0
  | .failed _ => 0

section Step

variable {inspector : Inspector} {document : Path} {cache after : AnchorCache}
  {worker next : Worker}

theorem work_lt_of_step (step : Step inspector document cache worker next after) :
    next.work inspector document < worker.work inspector document := by
  cases step with
  | start read =>
    simp only [work, read]
    omega
  | refuse read => simp [work, read]
  | settle | find | miss | read | fail | keep | finish =>
    simp only [work, List.length_cons]
    omega

theorem exists_step_of_work_ne_zero (cache : AnchorCache)
    (busy : worker.work inspector document ≠ 0) :
    ∃ next after, Step inspector document cache worker next after := by
  cases worker with
  | waiting =>
    cases read : Document.read inspector.disk document with
    | ok text => exact ⟨_, _, .start read⟩
    | error fault => exact ⟨_, _, .refuse read⟩
  | checking verdicts links =>
    cases links with
    | nil => exact ⟨_, _, .finish⟩
    | cons link links =>
      cases planned : inspector.plan document link with
      | settled verdict probed => exact ⟨_, _, .settle planned⟩
      | asking asked conclude =>
        cases found : cache.find? asked with
        | some slugs => exact ⟨_, _, .find planned found⟩
        | none => exact ⟨_, _, .miss planned found⟩
  | reading verdicts asked conclude links =>
    cases read : Document.read inspector.disk asked with
    | ok text => exact ⟨_, _, .read read⟩
    | error fault => exact ⟨_, _, .fail read⟩
  | keeping verdicts asked slugs conclude links => exact ⟨_, _, .keep⟩
  | done verdicts => exact absurd rfl busy
  | failed fault => exact absurd rfl busy

theorem done_or_failed_of_work_eq_zero (idle : worker.work inspector document = 0) :
    (∃ verdicts, worker = .done verdicts) ∨ ∃ fault, worker = .failed fault := by
  cases worker with
  | waiting =>
    rw [work] at idle
    split at idle <;> omega
  | checking | reading | keeping =>
    rw [work] at idle
    omega
  | done verdicts => exact .inl ⟨verdicts, rfl⟩
  | failed fault => exact .inr ⟨fault, rfl⟩

variable (rootAbsolute : inspector.root.isAbsolute = true) (tidy : document.IsTidy)
  (step : Step inspector document cache worker next after)

include step

theorem faithful_of_step (holds : worker.Holds inspector.disk)
    (faithful : cache.Faithful inspector.disk) : after.Faithful inspector.disk := by
  cases step with
  | keep =>
    rcases holds with ⟨askedTidy, text, read, rfl⟩
    exact faithful.add askedTidy read
  | start | refuse | settle | find | miss | read | fail | finish => exact faithful

include rootAbsolute tidy

theorem holds_of_step (holds : worker.Holds inspector.disk) : next.Holds inspector.disk := by
  cases step with
  | miss planned => exact Inspector.isTidy_of_plan rootAbsolute tidy planned
  | read read => exact ⟨holds, _, read, rfl⟩
  | start | refuse | settle | find | fail | keep | finish => trivial

/-- No step changes what a worker comes to. -/
theorem comesTo_of_step (faithful : cache.Faithful inspector.disk) :
    next.comesTo inspector document = worker.comesTo inspector document := by
  cases step with
  | start read =>
    rw [comesTo, comesTo, Inspector.alone, read]
    rfl
  | refuse read =>
    rw [comesTo, comesTo, Inspector.alone, read]
    rfl
  | settle planned => exact (Inspector.rest_cons_of_ok (Inspector.fresh_of_settled planned)).symm
  | find planned found =>
    have fresh := Inspector.fresh_of_asking planned
    rw [faithful _ (Inspector.isTidy_of_plan rootAbsolute tidy planned) _ found] at fresh
    exact (Inspector.rest_cons_of_ok fresh).symm
  | @miss _ _ _ asked _ planned =>
    have fresh := Inspector.fresh_of_asking planned
    cases read : Document.read inspector.disk asked with
    | ok text =>
      rw [read] at fresh
      simp only [comesTo, read]
      exact (Inspector.rest_cons_of_ok fresh).symm
    | error fault =>
      rw [read] at fresh
      simp only [comesTo, read]
      exact (Inspector.rest_cons_of_error fresh).symm
  | read read =>
    rw [comesTo, comesTo, read]
    rfl
  | fail read =>
    rw [comesTo, comesTo, read]
    rfl
  | keep => rfl
  | finish => rfl

end Step

end Worker

/-- The workers of a run with their documents, and the cache that they share. -/
structure Crew where
  workers : List (Path × Worker)
  cache : AnchorCache

namespace Crew

/-- All documents before a run, with nothing kept. -/
def start (documents : List Path) : Crew :=
  ⟨documents.map (·, .waiting), .empty⟩

/-- One of the workers takes a turn. -/
inductive Step (inspector : Inspector) : Crew → Crew → Prop
  | turn {before later : List (Path × Worker)} {document : Path} {worker next : Worker}
      {cache after : AnchorCache} (step : worker.Step inspector document cache next after) :
    Step inspector ⟨before ++ (document, worker) :: later, cache⟩
      ⟨before ++ (document, next) :: later, after⟩

/-- How a run may end: with the report if all workers are done, and with the failure of any worker
that has failed. -/
inductive Ends (crew : Crew) : Except ReadFault Report → Prop
  | report (done : ∀ entry ∈ crew.workers, ∃ verdicts, entry.2 = .done verdicts) :
    Ends crew (.ok (.ofFindings (crew.workers.map fun entry => .ofVerdicts entry.2.verdicts)))
  | fault {document : Path} {fault : ReadFault}
      (failed : (document, .failed fault) ∈ crew.workers) :
    Ends crew (.error fault)

/-- Whether a run over documents can end with a result. -/
def CanEnd (inspector : Inspector) (documents : List Path) (result : Except ReadFault Report) :
    Prop :=
  ∃ crew, Relation.ReflTransGen (Step inspector) (start documents) crew ∧ crew.Ends result

/-- Whether workers on these documents come to what the documents come to alone, and the cache is
faithful and stays so. -/
structure IsOnCourse (inspector : Inspector) (documents : List Path) (crew : Crew) : Prop where
  documents : crew.workers.map Prod.fst = documents
  faithful : crew.cache.Faithful inspector.disk
  holds : ∀ entry ∈ crew.workers, entry.2.Holds inspector.disk
  comesTo : ∀ entry ∈ crew.workers,
    entry.2.comesTo inspector entry.1 = inspector.alone entry.1

def work (inspector : Inspector) (crew : Crew) : Nat :=
  (crew.workers.map fun entry => entry.2.work inspector entry.1).sum

variable {inspector : Inspector} {documents : List Path} {crew next : Crew}

theorem work_lt_of_step (step : Step inspector crew next) :
    next.work inspector < crew.work inspector := by
  rcases step with ⟨step⟩
  have less := Worker.work_lt_of_step step
  simp only [work, List.map_append, List.map_cons, List.sum_append, List.sum_cons]
  omega

/-- Every run can go on to an end. -/
theorem exists_ends (inspector : Inspector) (crew : Crew) :
    ∃ last result, Relation.ReflTransGen (Step inspector) crew last ∧ last.Ends result := by
  induction size : crew.work inspector using Nat.strong_induction_on generalizing crew with
  | h size ih =>
    rcases crew with ⟨workers, cache⟩
    by_cases busy : ∃ entry ∈ workers, entry.2.work inspector entry.1 ≠ 0
    · rcases busy with ⟨⟨document, worker⟩, mem, busy⟩
      rcases List.append_of_mem mem with ⟨before, later, rfl⟩
      rcases Worker.exists_step_of_work_ne_zero cache busy with ⟨next, after, step⟩
      have turn := @Step.turn inspector before later document worker next cache after step
      rcases ih _ (size ▸ work_lt_of_step turn) _ rfl with ⟨last, result, reached, ends⟩
      exact ⟨last, result, .head turn reached, ends⟩
    · have idle : ∀ entry ∈ workers, entry.2.work inspector entry.1 = 0 := by
        intro entry mem
        by_contra notIdle
        exact busy ⟨entry, mem, notIdle⟩
      by_cases failure : ∃ entry ∈ workers, ∃ fault, entry.2 = .failed fault
      · rcases failure with ⟨⟨document, worker⟩, mem, fault, rfl⟩
        exact ⟨_, _, .refl, .fault mem⟩
      · refine ⟨_, _, .refl, .report fun entry mem => ?_⟩
        rcases Worker.done_or_failed_of_work_eq_zero (idle entry mem) with isDone | hasFailed
        · exact isDone
        · exact absurd ⟨entry, mem, hasFailed⟩ failure

theorem isOnCourse_start : (start documents).IsOnCourse inspector documents where
  documents := by
    rw [start, List.map_map]
    exact List.map_id' _
  faithful := AnchorCache.faithful_empty inspector.disk
  holds := by
    intro entry mem
    rcases List.mem_map.1 mem with ⟨document, -, rfl⟩
    trivial
  comesTo := by
    intro entry mem
    rcases List.mem_map.1 mem with ⟨document, -, rfl⟩
    rfl

theorem forall_mem_turn {α : Type} {property : α → Prop} {before later : List α} {a b : α}
    (all : ∀ c ∈ before ++ a :: later, property c) (new : property b) :
    ∀ c ∈ before ++ b :: later, property c := by
  simp only [List.forall_mem_append, List.forall_mem_cons] at all ⊢
  exact ⟨all.1, new, all.2.2⟩

section Run

variable (rootAbsolute : inspector.root.isAbsolute = true)
  (tidy : ∀ document ∈ documents, document.IsTidy)

include rootAbsolute tidy

theorem IsOnCourse.step (onCourse : crew.IsOnCourse inspector documents)
    (step : Step inspector crew next) : next.IsOnCourse inspector documents := by
  rcases onCourse with ⟨rfl, faithful, holds, comesTo⟩
  rcases step with @⟨before, later, document, worker, next, cache, after, step⟩
  have mem : (document, worker) ∈ before ++ (document, worker) :: later := by simp
  have documentTidy : document.IsTidy := tidy document (List.mem_map_of_mem mem)
  exact {
    documents := by simp
    faithful := Worker.faithful_of_step step (holds _ mem) faithful
    holds := forall_mem_turn holds
      (Worker.holds_of_step rootAbsolute documentTidy step (holds _ mem))
    comesTo := forall_mem_turn comesTo
      ((Worker.comesTo_of_step rootAbsolute documentTidy step faithful).trans (comesTo _ mem)) }

theorem isOnCourse_of_reached
    (reached : Relation.ReflTransGen (Step inspector) (start documents) crew) :
    crew.IsOnCourse inspector documents := by
  induction reached with
  | refl => exact isOnCourse_start
  | tail _ step onCourse => exact onCourse.step rootAbsolute tidy step

end Run

section Failures

variable {document : Path} {fault : ReadFault}

/-- A worker that has failed has failed as its document does alone. -/
theorem IsOnCourse.alone_of_failed (onCourse : crew.IsOnCourse inspector documents)
    (failed : (document, .failed fault) ∈ crew.workers) :
    document ∈ documents ∧ inspector.alone document = .error fault := by
  refine ⟨?_, (onCourse.comesTo _ failed).symm⟩
  rw [← onCourse.documents]
  exact List.mem_map_of_mem failed

/-- A worker can go on to its end while the others do nothing. -/
theorem exists_idle {before later : List (Path × Worker)} {worker : Worker} {cache : AnchorCache} :
    ∃ next after, next.work inspector document = 0 ∧
      Relation.ReflTransGen (Step inspector) ⟨before ++ (document, worker) :: later, cache⟩
        ⟨before ++ (document, next) :: later, after⟩ := by
  induction size : worker.work inspector document using Nat.strong_induction_on
    generalizing worker cache with
  | h size ih =>
    by_cases idle : worker.work inspector document = 0
    · exact ⟨worker, cache, idle, .refl⟩
    · rcases Worker.exists_step_of_work_ne_zero cache idle with ⟨next, after, step⟩
      rcases ih _ (size ▸ Worker.work_lt_of_step step) rfl with ⟨last, kept, lastIdle, reached⟩
      exact ⟨last, kept, lastIdle, .head (.turn step) reached⟩

variable (rootAbsolute : inspector.root.isAbsolute = true)
  (tidy : ∀ document ∈ documents, document.IsTidy)

include rootAbsolute tidy

theorem canEnd_of_alone (mem : document ∈ documents)
    (alone : inspector.alone document = .error fault) :
    CanEnd inspector documents (.error fault) := by
  rcases List.append_of_mem mem with ⟨before, later, rfl⟩
  have started : start (before ++ document :: later) =
      ⟨before.map (·, .waiting) ++ (document, .waiting) :: later.map (·, .waiting), .empty⟩ := by
    rw [start, List.map_append, List.map_cons]
  rcases @exists_idle inspector document (before.map (·, .waiting)) (later.map (·, .waiting)) .waiting
    .empty with ⟨next, after, idle, reached⟩
  rw [← started] at reached
  have onCourse := isOnCourse_of_reached rootAbsolute tidy reached
  have nextMem : (document, next) ∈ before.map (·, .waiting) ++ (document, next) ::
      later.map (·, .waiting) := by
    simp
  have comesTo := (onCourse.comesTo _ nextMem).trans alone
  rcases Worker.done_or_failed_of_work_eq_zero idle with ⟨verdicts, rfl⟩ | ⟨other, rfl⟩
  · cases comesTo
  · cases comesTo
    exact ⟨_, reached, .fault nextMem⟩

/-- A run can end with a failure exactly if some document fails with it alone. -/
theorem canEnd_error_iff : CanEnd inspector documents (.error fault) ↔
    ∃ document ∈ documents, inspector.alone document = .error fault := by
  constructor
  · rintro ⟨crew, reached, @⟨⟩ | @⟨document, _, failed⟩⟩
    have onCourse := isOnCourse_of_reached rootAbsolute tidy reached
    exact ⟨document, onCourse.alone_of_failed failed⟩
  · rintro ⟨document, mem, alone⟩
    exact canEnd_of_alone rootAbsolute tidy mem alone

end Failures

section Ends

variable {network : Probe} {disk : Disk} {settings : Settings} {given root : Path}
  (canonical : canonicalRoot disk given = .ok root)
  (onCourse : crew.IsOnCourse (inspectorFor network disk settings root)
    (Search.documents disk settings root))

include canonical onCourse

/-- When all workers are done, the report is the one of the documents in order. -/
theorem validate_of_done (done : ∀ entry ∈ crew.workers, ∃ verdicts, entry.2 = .done verdicts) :
    validate network disk settings given =
      .ok (.ofFindings (crew.workers.map fun entry => .ofVerdicts entry.2.verdicts)) := by
  have alone : ∀ entry ∈ crew.workers,
      (inspectorFor network disk settings root).IsInspectable entry.1 ∧ entry.2.verdicts =
        ((inspectorFor network disk settings root).sheet entry.1).entries.map Prod.snd := by
    intro entry mem
    rcases done entry mem with ⟨verdicts, isDone⟩
    have comesTo := onCourse.comesTo entry mem
    rw [isDone] at comesTo ⊢
    exact Inspector.alone_eq_ok_iff.1 comesTo.symm
  have inspectsAll : (inspectorFor network disk settings root).InspectsAll := by
    intro document mem
    have isListed : document ∈ crew.workers.map Prod.fst := onCourse.documents ▸ mem
    rcases List.mem_map.1 isListed with ⟨entry, entryMem, rfl⟩
    exact (alone entry entryMem).1
  have findings : crew.workers.map (fun entry => Findings.ofVerdicts entry.2.verdicts) =
      ((Search.documents disk settings root).map
        (inspectorFor network disk settings root).sheet).map
          fun sheet => .ofVerdicts (sheet.entries.map Prod.snd) := by
    rw [← onCourse.documents, List.map_map, List.map_map]
    apply List.map_congr_left
    intro entry mem
    rw [(alone entry mem).2]
    rfl
  rw [validate_of_canonicalRoot canonical inspectsAll, findings, Report.ofFindings_sheets]
  rfl

end Ends

end Crew

section Validate

variable {network : Probe} {disk : Disk} {settings : Settings} {given root : Path}

/-- In order, there is no report exactly if some document fails alone. -/
theorem exists_failure_iff (canonical : canonicalRoot disk given = .ok root) :
    (∃ failure, validate network disk settings given = .error failure) ↔
      ∃ document ∈ Search.documents disk settings root, ∃ fault,
        (inspectorFor network disk settings root).alone document = .error fault := by
  constructor
  · rintro ⟨failure, failed⟩
    by_contra noneFails
    have inspectsAll : (inspectorFor network disk settings root).InspectsAll := by
      intro document mem
      cases alone : (inspectorFor network disk settings root).alone document with
      | ok verdicts => exact (Inspector.alone_eq_ok_iff.1 alone).1
      | error fault => exact absurd ⟨document, mem, fault, alone⟩ noneFails
    rw [validate_of_canonicalRoot canonical inspectsAll] at failed
    cases failed
  · rintro ⟨document, mem, fault, alone⟩
    cases valid : validate network disk settings given with
    | error failure => exact ⟨failure, rfl⟩
    | ok report =>
      have inspectable := inspectsAll_of_validate canonical valid document mem
      rw [Inspector.alone_eq_ok_iff.2 ⟨inspectable, rfl⟩] at alone
      cases alone

variable (network settings)

/-- A run with many workers can end with a report exactly if it is the one that the run in order ends
with.  It can end with a failure exactly if some document fails with it alone, and then the run in
order fails, too.  Wherever a run stands, it can go on to an end. -/
theorem canEnd_exact (canonical : canonicalRoot disk given = .ok root) :
    (∀ report, Crew.CanEnd (inspectorFor network disk settings root)
        (Search.documents disk settings root) (.ok report) ↔
      validate network disk settings given = .ok report) ∧
    (∀ fault, Crew.CanEnd (inspectorFor network disk settings root)
        (Search.documents disk settings root) (.error fault) ↔
      ∃ document ∈ Search.documents disk settings root,
        (inspectorFor network disk settings root).alone document = .error fault) ∧
    ((∃ failure, validate network disk settings given = .error failure) ↔
      ∃ fault, Crew.CanEnd (inspectorFor network disk settings root)
        (Search.documents disk settings root) (.error fault)) ∧
    ∀ crew, Relation.ReflTransGen (Crew.Step (inspectorFor network disk settings root))
        (.start (Search.documents disk settings root)) crew →
      ∃ last result, Relation.ReflTransGen (Crew.Step (inspectorFor network disk settings root))
        crew last ∧ last.Ends result := by
  have rootAbsolute : (inspectorFor network disk settings root).root.isAbsolute = true :=
    isAbsolute_of_canonicalRoot canonical
  have tidy : ∀ document ∈ Search.documents disk settings root, document.IsTidy :=
    fun document mem => Search.isTidy_of_canonicalRoot canonical mem
  have faults : ∀ fault, Crew.CanEnd (inspectorFor network disk settings root)
      (Search.documents disk settings root) (.error fault) ↔
        ∃ document ∈ Search.documents disk settings root,
          (inspectorFor network disk settings root).alone document = .error fault :=
    fun fault => Crew.canEnd_error_iff rootAbsolute tidy
  have failures : (∃ failure, validate network disk settings given = .error failure) ↔
      ∃ fault, Crew.CanEnd (inspectorFor network disk settings root)
        (Search.documents disk settings root) (.error fault) := by
    rw [exists_failure_iff canonical]
    simp only [faults]
    constructor
    · rintro ⟨document, mem, fault, alone⟩
      exact ⟨fault, document, mem, alone⟩
    · rintro ⟨fault, document, mem, alone⟩
      exact ⟨document, mem, fault, alone⟩
  refine ⟨?_, faults, failures, fun crew _ => Crew.exists_ends _ crew⟩
  intro report
  constructor
  · rintro ⟨crew, reached, @⟨done⟩⟩
    exact Crew.validate_of_done canonical (Crew.isOnCourse_of_reached rootAbsolute tidy reached) done
  · intro valid
    rcases Crew.exists_ends (inspectorFor network disk settings root)
      (.start (Search.documents disk settings root)) with ⟨last, result, reached, ends⟩
    cases ends with
    | report done =>
      have same := Crew.validate_of_done canonical
        (Crew.isOnCourse_of_reached rootAbsolute tidy reached) done
      cases same.symm.trans valid
      exact ⟨last, reached, .report done⟩
    | @fault document fault failed =>
      rcases failures.2 ⟨fault, last, reached, .fault failed⟩ with ⟨failure, invalid⟩
      cases invalid.symm.trans valid

end Validate

end MarkdownLinks
