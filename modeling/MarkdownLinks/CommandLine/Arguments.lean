import MarkdownLinks.Report.Format

/-!
# Arguments

What the arguments of the command ask for.  They are read from left to right; the first one that
asks for help or for the version decides, unless an argument before it is wrong.
-/

namespace MarkdownLinks

namespace CommandLine

/-- What the command is told about a check. -/
structure Invocation where
  checkExternal : Bool := false
  exclude : List Text := []
  format : Option Report.Format := none
  noColor : Bool := false
  repo : Option Text := none
  verbose : Bool := false
  watch : Bool := false

inductive Request where
  | check (invocation : Invocation)
  | help (long : Bool)
  | version

inductive UsageError where
  | unexpected (argument : Text)
  | repeated (option : Text)
  | missingValue (option : Text)
  | unneededValue (option : Text)
  | badValue (option value : Text)

namespace UsageError

def message : UsageError → Text
  | unexpected argument => "error: unexpected argument '".toList ++ argument ++ "'".toList
  | repeated option => "error: '".toList ++ option ++ "' cannot be used twice".toList
  | missingValue option => "error: '".toList ++ option ++ "' needs a value".toList
  | unneededValue option => "error: '".toList ++ option ++ "' takes no value".toList
  | badValue option value =>
    "error: '".toList ++ value ++ "' is no value for '".toList ++ option ++ "'".toList

end UsageError

inductive Flag where
  | checkExternal
  | noColor
  | verbose
  | watch

namespace Flag

def written : Flag → Text
  | checkExternal => "--check-external".toList
  | noColor => "--no-color".toList
  | verbose => "--verbose".toList
  | watch => "--watch".toList

end Flag

inductive Valued where
  | exclude
  | format
  | repo

namespace Valued

def written : Valued → Text
  | exclude => "--exclude".toList
  | format => "--format".toList
  | repo => "--repo".toList

end Valued

/-- What the name of a long option means. -/
inductive Meaning where
  | flag (flag : Flag)
  | valued (option : Valued)
  | help
  | version

def option? (name : Text) : Option Meaning :=
  [("check-external".toList, Meaning.flag .checkExternal), ("exclude".toList, .valued .exclude),
    ("format".toList, .valued .format), ("no-color".toList, .flag .noColor),
    ("repo".toList, .valued .repo), ("verbose".toList, .flag .verbose),
    ("watch".toList, .flag .watch), ("help".toList, .help),
    ("version".toList, .version)].lookup name

namespace Invocation

/-- The invocation with a flag switched on, which must not happen twice. -/
def switchOn (invocation : Invocation) (flag : Flag) : Except UsageError Invocation :=
  let (old, new) := match flag with
    | .checkExternal => (invocation.checkExternal, { invocation with checkExternal := true })
    | .noColor => (invocation.noColor, { invocation with noColor := true })
    | .verbose => (invocation.verbose, { invocation with verbose := true })
    | .watch => (invocation.watch, { invocation with watch := true })
  if old then .error (.repeated flag.written) else .ok new

/-- The invocation with the value of an option.  Only the option that excludes may be repeated. -/
def give (invocation : Invocation) (option : Valued) (value : Text) :
    Except UsageError Invocation :=
  match option with
  | .exclude => .ok { invocation with exclude := invocation.exclude ++ [value] }
  | .format =>
    if invocation.format.isSome then .error (.repeated option.written)
    else if value = "json".toList then .ok { invocation with format := some .json }
    else if value = "text".toList then .ok { invocation with format := some .text }
    else .error (.badValue option.written value)
  | .repo =>
    if invocation.repo.isSome then .error (.repeated option.written)
    else if value.isEmpty then .error (.badValue option.written value)
    else .ok { invocation with repo := some value }

end Invocation

/-- Whether an argument can be the value of the option before it. -/
def isValue : Text → Bool
  | ['-'] => true
  | '-' :: _ => false
  | _ => true

/-- What letters after a single hyphen say: how the invocation goes on, or what they ask for. -/
def parseLetters (invocation : Invocation) :
    Text → Except UsageError (Invocation ⊕ Request)
  | [] => .ok (.inl invocation)
  | 'v' :: rest => do
    let invocation ← invocation.switchOn .verbose
    parseLetters invocation rest
  | 'h' :: _ => .ok (.inr (.help false))
  | 'V' :: _ => .ok (.inr .version)
  | c :: _ => .error (.unexpected ['-', c])

/-- The name of a long option and the value attached to it with `=`. -/
def splitOption (option : Text) : Text × Option Text :=
  match splitAtFirst? '=' option with
  | some (name, value) => (name, some value)
  | none => (option, none)

/-- What the arguments after those of an invocation ask for. -/
def parseAfter (invocation : Invocation) : List Text → Except UsageError Request
  | [] => .ok (.check invocation)
  | ('-' :: '-' :: option) :: rest =>
    if option.isEmpty then
      match rest with
      | [] => .ok (.check invocation)
      | argument :: _ => .error (.unexpected argument)
    else
      let (name, attached) := splitOption option
      match option? name, attached with
      | none, _ => .error (.unexpected ('-' :: '-' :: name))
      | some .help, none => .ok (.help true)
      | some .version, none => .ok .version
      | some (.flag flag), none => do
        let invocation ← invocation.switchOn flag
        parseAfter invocation rest
      | some .help, some _ | some .version, some _ | some (.flag _), some _ =>
        .error (.unneededValue ('-' :: '-' :: name))
      | some (.valued valued), some value => do
        let invocation ← invocation.give valued value
        parseAfter invocation rest
      | some (.valued valued), none =>
        match rest with
        | [] => .error (.missingValue valued.written)
        | value :: rest =>
          if isValue value then do
            let invocation ← invocation.give valued value
            parseAfter invocation rest
          else
            .error (.missingValue valued.written)
  | ('-' :: c :: letters) :: rest => do
    match ← parseLetters invocation (c :: letters) with
    | .inl invocation => parseAfter invocation rest
    | .inr request => return request
  | argument :: _ => .error (.unexpected argument)

def parse (arguments : List Text) : Except UsageError Request :=
  parseAfter {} arguments

end CommandLine

end MarkdownLinks
