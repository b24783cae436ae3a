import MarkdownLinks.Path.Basic

/-!
# Findings

What checking links finds: defects, which are links that do not resolve, and advice about links
that do.  A finding names the document and the line of the link that it is about.
-/

namespace MarkdownLinks

namespace Defect

/-- Why a link does not resolve. -/
inductive Cause where
  /-- No heading of the target has the slug that the link asks for; the first few that there are
  come along.  Without a target, it is the document of the link itself. -/
  | missingAnchor (available : List Text) (missing : Text) (target : Option Path)
  /-- The server answered with an error. -/
  | refused (status : Nat)
  /-- There is no such file, not even with the extension of documents. -/
  | missingFile (expected : Path)
  deriving DecidableEq

namespace Cause

def name : Cause → Text
  | missingAnchor .. => "broken_anchor".toList
  | refused .. => "broken_external".toList
  | missingFile .. => "broken_link".toList

end Cause

end Defect

structure Defect where
  /-- The document with the link, relative to the root. -/
  file : Path
  line : Nat
  url : Text
  text : Text
  message : Text
  cause : Defect.Cause
  deriving DecidableEq

namespace Advice

/-- Why a link that resolves should still be looked at. -/
inductive Reason where
  /-- It names a directory without a slash at the end. -/
  | directoryWithoutSlash (suggestion : Text)
  /-- The server could not be reached. -/
  | unverified (reason : Text)
  /-- It resolves only with the extension of documents after it. -/
  | missingExtension (suggestion : Text)
  deriving DecidableEq

namespace Reason

def name : Reason → Text
  | directoryWithoutSlash .. => "directory_no_slash".toList
  | unverified .. => "external_unverified".toList
  | missingExtension .. => "missing_md_extension".toList

end Reason

end Advice

structure Advice where
  file : Path
  line : Nat
  url : Text
  reason : Advice.Reason
  deriving DecidableEq

/-- What checking one link gives: a defect if the link does not resolve, and any advice. -/
structure Verdict where
  defect : Option Defect := none
  advice : List Advice := []
  deriving DecidableEq

namespace Verdict

/-- The verdict on a link that resolves and needs no advice. -/
def sound : Verdict := {}

def isSound (verdict : Verdict) : Bool :=
  verdict.defect.isNone

end Verdict

end MarkdownLinks
