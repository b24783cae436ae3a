import MarkdownLinks.Proofs.Inspection.Findings
import MarkdownLinks.Proofs.Url.Web

/-!
# What a check asks of the network

A check gives a URL to the probe only if the URL leads to the web, and then it does nothing else: it
reads no file and leaves the cache alone.  No other check depends on the probe.
-/

namespace MarkdownLinks

namespace Inspector

/-- The inspector with another probe, or without one. -/
def withProbe (inspector : Inspector) (probe : Option Probe) : Inspector :=
  { inspector with probe := probe }

/-- The inspector of another disk. -/
def withDisk (inspector : Inspector) (disk : Disk) : Inspector :=
  { inspector with disk := disk }

variable {inspector : Inspector} {source : Path} {link : Link} {cache : AnchorCache}

theorem probed_checkAnchor {document : Path} {fragment message : Text} {target : Option Path}
    {soFar sound : List Advice} :
    (inspector.checkAnchor source link cache document fragment message target soFar
      sound).probed = [] := by
  unfold checkAnchor
  split
  · rfl
  · simp only
    split <;> rfl

theorem probed_checkFragment {target : Path} {fragment : Option Text} {soFar : List Advice} :
    (inspector.checkFragment source link cache target fragment soFar).probed = [] := by
  simp only [checkFragment]
  split
  · exact probed_checkAnchor
  · rfl

theorem probed_checkFile {file : Text} {fragment : Option Text} :
    (inspector.checkFile source link cache file fragment).probed = [] := by
  simp only [checkFile]
  split
  · rfl
  · split
    · exact probed_checkFragment
    · exact probed_checkFragment
    · rfl

/-- A check of a URL of the web asks the probe for it, and that is all it does. -/
theorem check_of_isWeb {probe : Probe} (configured : inspector.probe = some probe)
    (web : Url.isWeb link.url = true) :
    inspector.check cache source link =
      ⟨.ok (inspector.probeVerdict source link (probe link.url)), cache, [link.url]⟩ := by
  rcases Url.exists_target_of_isWeb web with ⟨scheme, probed, target⟩
  simp only [check, target, checkExternal, configured, List.contains_iff_mem.2 probed, if_true]

theorem checkExternal_of_not_mem {scheme : Text} (notProbed : scheme ∉ Url.probedSchemes) :
    inspector.checkExternal source link cache scheme = .pure cache .sound := by
  have refused : ¬ Url.probedSchemes.contains scheme = true := by
    rw [List.contains_iff_mem]
    exact notProbed
  unfold checkExternal
  split
  · rw [if_neg refused]
  · rfl

/-- A check of any other URL does not depend on the probe. -/
theorem check_withProbe (notWeb : Url.isWeb link.url = false) (probe : Option Probe) :
    (inspector.withProbe probe).check cache source link = inspector.check cache source link := by
  simp only [check]
  cases target : Url.target link.url with
  | external scheme =>
    have notProbed := Url.not_mem_of_not_isWeb notWeb target
    simp only [checkExternal_of_not_mem notProbed]
  | sameDocument => rfl
  | file path fragment => rfl

/-- What the probe is asked for when a link is checked: the URL itself, if there is a probe and the
URL is of the web. -/
def askedFor (inspector : Inspector) (link : Link) : List Text :=
  if inspector.probe.isSome && Url.isWeb link.url then [link.url] else []

theorem probed_check (inspector : Inspector) (cache : AnchorCache) (source : Path) (link : Link) :
    (inspector.check cache source link).probed = inspector.askedFor link := by
  unfold askedFor
  cases web : Url.isWeb link.url with
  | true =>
    cases configured : inspector.probe with
    | some probe =>
      rw [check_of_isWeb configured web]
      rfl
    | none =>
      rcases Url.exists_target_of_isWeb web with ⟨scheme, -, target⟩
      simp only [check, target, checkExternal, configured]
      rfl
  | false =>
    rw [Bool.and_false]
    simp only [check]
    cases target : Url.target link.url with
    | external scheme =>
      simp only [checkExternal_of_not_mem (Url.not_mem_of_not_isWeb web target)]
      rfl
    | sameDocument => exact probed_checkAnchor
    | file path fragment => exact probed_checkFile

section Outcome

variable {outcome : ProbeOutcome}

theorem defect_probeVerdict_isSome_iff :
    (inspector.probeVerdict source link outcome).defect.isSome = true ↔
      ∃ status, outcome = .status status ∧ 400 ≤ status := by
  cases outcome with
  | reachable => simp [probeVerdict, Verdict.sound]
  | status code =>
    by_cases refused : 400 ≤ code <;> simp [probeVerdict, refusal, Verdict.sound, refused]
  | unreachable reason => simp [probeVerdict]

theorem advice_probeVerdict_ne_nil_iff :
    (inspector.probeVerdict source link outcome).advice ≠ [] ↔
      ∃ reason, outcome = .unreachable reason := by
  rw [advice_probeVerdict]
  cases outcome <;> simp

end Outcome

/-- Whether a check asks nothing, and is the same whatever the probe. -/
structure IgnoresProbe (inspector : Inspector) (cache : AnchorCache) (source : Path) (link : Link) :
    Prop where
  probed : (inspector.check cache source link).probed = []
  same : ∀ probe, (inspector.withProbe probe).check cache source link =
    inspector.check cache source link

/-- Whether a check asks a probe for a URL and does nothing else: it gives the same on any disk and
with any cache, it leaves the cache alone, and it finds what the answer says. -/
structure AsksOnce (inspector : Inspector) (probe : Probe) (cache : AnchorCache) (source : Path)
    (link : Link) : Prop where
  probed : (inspector.check cache source link).probed = [link.url]
  cache : (inspector.check cache source link).cache = cache
  result : ∃ verdict,
    (∀ disk other, ((inspector.withDisk disk).check other source link).result = .ok verdict) ∧
      (verdict.defect.isSome = true ↔ ∃ status, probe link.url = .status status ∧ 400 ≤ status) ∧
      (verdict.advice ≠ [] ↔ ∃ reason, probe link.url = .unreachable reason)

theorem ignoresProbe_of_not_isWeb (notWeb : Url.isWeb link.url = false) :
    inspector.IgnoresProbe cache source link where
  probed := by
    rw [probed_check, askedFor, notWeb, Bool.and_false]
    rfl
  same probe := check_withProbe notWeb probe

theorem asksOnce_of_isWeb {probe : Probe} (configured : inspector.probe = some probe)
    (web : Url.isWeb link.url = true) : inspector.AsksOnce probe cache source link where
  probed := by rw [check_of_isWeb configured web]
  cache := by rw [check_of_isWeb configured web]
  result := by
    refine ⟨inspector.probeVerdict source link (probe link.url), ?_,
      defect_probeVerdict_isSome_iff, advice_probeVerdict_ne_nil_iff⟩
    intro disk other
    have elsewhere : (inspector.withDisk disk).check other source link =
        ⟨.ok (inspector.probeVerdict source link (probe link.url)), other, [link.url]⟩ :=
      check_of_isWeb configured web
    rw [elsewhere]

/-- The URLs that are given to the probe in calls made one after another with one cache.  The probe
may change from call to call. -/
def asked (inspector : Inspector) (cache : AnchorCache) : List (Probe × Path × Link) → List Text
  | [] => []
  | (probe, source, link) :: rest =>
    let inspection := (inspector.withProbe (some probe)).check cache source link
    inspection.probed ++ inspector.asked inspection.cache rest

end Inspector

/-- The URLs of the web among links, in order. -/
def webUrls (links : List Link) : List Text :=
  (links.map Link.url).filter Url.isWeb

namespace Inspector

theorem flatMap_askedFor (inspector : Inspector) (links : List Link) :
    links.flatMap inspector.askedFor = if inspector.probe.isSome then webUrls links else [] := by
  induction links with
  | nil =>
    rw [List.flatMap_nil]
    split <;> rfl
  | cons link rest ih =>
    rw [List.flatMap_cons, ih, askedFor]
    cases inspector.probe <;> cases web : Url.isWeb link.url <;> simp [webUrls, web]

/-- Of all calls, those for URLs of the web reach the probe, each once and in order. -/
theorem asked_eq (inspector : Inspector) (cache : AnchorCache)
    (calls : List (Probe × Path × Link)) :
    inspector.asked cache calls = webUrls (calls.map fun call => call.2.2) := by
  induction calls generalizing cache with
  | nil => rfl
  | cons call rest ih =>
    rcases call with ⟨probe, source, link⟩
    rw [asked, ih, probed_check, askedFor, List.map_cons]
    cases web : Url.isWeb link.url <;> simp [webUrls, withProbe, web]

end Inspector

end MarkdownLinks
