import MarkdownLinks.Disk.Edit
import MarkdownLinks.Proofs.Document

/-!
# What the cache remembers

Slugs may be asked for while the files change.  The first call on a path that succeeds decides what
all later calls on it give; until then every call reads the file as it is at that moment.  The
invariant is that the cache holds, for every path, what the earliest successful call on a path with
the same components gave.
-/

namespace MarkdownLinks

namespace AnchorCache

/-- A change of the disk, whatever it is, or a call. -/
inductive Event where
  | change (edit : Disk → Disk)
  | ask (p : Path)

/-- A call that was made, and its answer. -/
structure Call where
  path : Path
  answer : Except ReadFault TextSet

/-- What some events have led to: the disk and the cache as they are now, and the calls that were
made, the first one first. -/
structure History where
  disk : Disk
  cache : AnchorCache
  calls : List Call

namespace History

def start (disk : Disk) : History where
  disk := disk
  cache := empty
  calls := []

/-- The answer to a call now. -/
def answer (history : History) (p : Path) : Except ReadFault TextSet :=
  (history.cache.slugs history.disk p).1

/-- The cache after a call now. -/
def cacheAfter (history : History) (p : Path) : AnchorCache :=
  (history.cache.slugs history.disk p).2

def step (history : History) : Event → History
  | .change edit => { history with disk := edit history.disk }
  | .ask p =>
    { history with
      cache := history.cacheAfter p
      calls := history.calls ++ [⟨p, history.answer p⟩] }

/-- The history of a cache that is empty at first. -/
def after (disk : Disk) (events : List Event) : History :=
  events.foldl step (start disk)

end History

/-- What the earliest successful call on a path with the same components gave. -/
def firstSuccess (p : Path) (calls : List Call) : Option TextSet :=
  calls.findSome? fun call =>
    if call.path.components = p.components then call.answer.toOption else none

theorem firstSuccess_concat (p : Path) (calls : List Call) (call : Call) :
    firstSuccess p (calls ++ [call]) =
      (firstSuccess p calls).or
        (if call.path.components = p.components then call.answer.toOption else none) := by
  simp only [firstSuccess, List.findSome?_append, List.findSome?_singleton]

namespace History

/-- Whether the cache holds what the earliest successful calls gave. -/
def Remembers (history : History) : Prop :=
  ∀ p, history.cache.find? p = firstSuccess p history.calls

theorem remembers_start (disk : Disk) : (start disk).Remembers := by
  intro p
  rfl

theorem remembers_ask {history : History} (remembers : history.Remembers) (p : Path) :
    (history.step (.ask p)).Remembers := by
  intro q
  simp only [step, cacheAfter, answer, firstSuccess_concat, ← remembers q]
  cases known : history.cache.find? p with
  | some found =>
    rw [slugs_of_find? known]
    by_cases same : p.components = q.components
    · have alsoKnown : history.cache.find? q = some found := by
        rw [← find?_congr same, known]
      simp [same, alsoKnown]
    · simp [same]
  | none =>
    cases read : Document.read history.disk p with
    | ok text =>
      rw [slugs_of_read known read, find?_add]
      by_cases same : p.components = q.components
      · have alsoUnknown : history.cache.find? q = none := by
          rw [← find?_congr same, known]
        simp [same, alsoUnknown, Except.toOption]
      · simp [same]
    | error fault =>
      rw [slugs_of_fault known read]
      simp [Except.toOption]

/-- One event keeps the invariant, whatever it changes. -/
theorem remembers_step {history : History} (remembers : history.Remembers) (event : Event) :
    (history.step event).Remembers := by
  cases event with
  | change edit => exact remembers
  | ask p => exact remembers_ask remembers p

theorem remembers_foldl {history : History} (remembers : history.Remembers)
    (events : List Event) : (events.foldl step history).Remembers := by
  induction events generalizing history with
  | nil => exact remembers
  | cons event rest ih => exact ih (remembers_step remembers event)

theorem remembers_after (disk : Disk) (events : List Event) : (after disk events).Remembers :=
  remembers_foldl (remembers_start disk) events

/-- After whatever has happened, a call gives what the earliest successful call on the path gave.
If there was none, it reads the file as it is now, and leaves the cache alone if it fails. -/
theorem answer_after (disk : Disk) (events : List Event) (p : Path) :
    (after disk events).answer p =
        (match firstSuccess p (after disk events).calls with
        | some first => .ok first
        | none => (Document.read (after disk events).disk p).map Heading.slugs) ∧
      ∀ fault, (after disk events).answer p = .error fault →
        (after disk events).cacheAfter p = (after disk events).cache := by
  have remembers := remembers_after disk events
  generalize after disk events = history at *
  simp only [answer, cacheAfter, ← remembers p]
  cases known : history.cache.find? p with
  | some found =>
    rw [slugs_of_find? known]
    simp
  | none =>
    cases read : Document.read history.disk p with
    | ok text =>
      rw [slugs_of_read known read]
      simp [Except.map]
    | error fault =>
      rw [slugs_of_fault known read]
      simp [Except.map]

def sampleDocument : Path :=
  .ofText "/a.md".toList

/-- A document that is asked for before it is there, then by other spellings of its path, of which
the first one cannot be read, and that is written again. -/
def sampleEvents : List Event :=
  [.ask sampleDocument,
    .change fun disk => disk.writeFile sampleDocument (Utf8.encode "# First\n".toList),
    .ask (.ofText "//a.md/".toList),
    .ask (.ofText "//a.md".toList),
    .change fun disk => disk.writeFile sampleDocument (Utf8.encode "# Second\n".toList)]

theorem answer_after_sample :
    ((after .empty sampleEvents).answer sampleDocument).toOption.map TextSet.toList =
        some ["#first".toList] ∧
      (after .empty []).answer sampleDocument = .error ⟨sampleDocument, .notFound⟩ ∧
      (after .empty []).cacheAfter sampleDocument = (after .empty []).cache := by
  have missing : (after .empty []).answer sampleDocument = .error ⟨sampleDocument, .notFound⟩ := rfl
  refine ⟨?_, missing, (answer_after .empty [] sampleDocument).2 _ missing⟩
  rw [(answer_after .empty sampleEvents sampleDocument).1]
  decide +kernel

end History

end AnchorCache

end MarkdownLinks
