import ComponentSync.Glob.Match
import ComponentSync.Text.Blank
/-!
Ignore rules: glob patterns that keep paths out of every scan and push. A rule with a `/` in it
(after trailing slashes are dropped) is anchored and matches whole paths relative to the source
root; any other rule matches a single path component. A path is ignored when a rule matches the
path itself or any of its parent directories.

`.git` and `.odo` are always ignored. Rule lines are trimmed; blank lines and lines starting
with `#` or `!` are skipped, so negation is not supported.
-/
namespace ComponentSync

structure IgnoreRule where
  /-- The rule as written. -/
  raw : String
  pattern : Glob.Pattern
  /-- Anchored rules match whole relative paths; others match one component. -/
  anchored : Bool
  deriving Repr

/-- A rule text that does not compile, with the trimmed line it came from. -/
structure RuleError where
  pattern : String
  error : Glob.PatternError
  deriving Repr

/-- Compiles a rule: trailing slashes are dropped, a remaining `/` anchors the rule, and leading
slashes are dropped from the pattern. -/
def IgnoreRule.parse (raw : String) : Except Glob.PatternError IgnoreRule :=
  let trimmed := Text.dropTrailing '/' raw
  let anchored := trimmed.toList.contains '/'
  let body := Text.dropLeading '/' trimmed
  (Glob.Pattern.compile body).map fun p => ⟨raw, p, anchored⟩

/-- Whether a rule matches a path given by its components, at the given depth. -/
def IgnoreRule.hits (r : IgnoreRule) (prefixPath lastPart : String) : Bool :=
  if r.anchored then r.pattern.matches prefixPath else r.pattern.matches lastPart

structure RuleSet where
  rules : List IgnoreRule
  deriving Repr

def builtinIgnores : List String := [".git", ".odo"]

def RuleSet.builtin : RuleSet :=
  ⟨builtinIgnores.filterMap fun raw => (IgnoreRule.parse raw).toOption⟩

/-- Adds rule lines: each is trimmed, blank lines and lines starting with `#` or `!` are
skipped, and the first line that does not compile stops with an error. -/
def RuleSet.extend (set : RuleSet) (lines : List String) : Except RuleError RuleSet :=
  let step (acc : RuleSet) (line : String) : Except RuleError RuleSet :=
    let line := Text.trimBlank line
    if line.isEmpty || line.startsWith "#" || line.startsWith "!" then .ok acc
    else
      match IgnoreRule.parse line with
      | .ok r => .ok ⟨acc.rules ++ [r]⟩
      | .error e => .error ⟨line, e⟩
  lines.foldlM step set

def RuleSet.ofLines (lines : List String) : Except RuleError RuleSet :=
  RuleSet.builtin.extend lines

def RuleSet.patterns (set : RuleSet) : List String :=
  set.rules.map (·.raw)

/-- The components of a relative path after leading `./` and surrounding `/` are dropped. -/
def pathComponents (path : String) : List String :=
  let cs := Text.dropLeadingPair '.' '/' path.toList
  let s := Text.dropTrailing '/' (Text.dropLeading '/' (String.ofList cs))
  if s.isEmpty then [] else (s.toList.splitOn '/').map String.ofList

/-- Whether a relative path, or one of its parent directories, is ignored. -/
def RuleSet.isIgnored (set : RuleSet) (path : String) : Bool :=
  let parts := pathComponents path
  (List.range parts.length).any fun i =>
    let prefixParts := parts.take (i + 1)
    let prefixPath := "/".intercalate prefixParts
    let lastPart := prefixParts.getLast?.getD ""
    set.rules.any fun r => r.hits prefixPath lastPart

end ComponentSync
