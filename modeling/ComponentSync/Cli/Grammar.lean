/-!
The grammar of the command line: commands, their options and arguments, and their help texts.

The program `odo` has the commands `push`, `watch`, `status` and `config` (with `view`, `set`
and `unset`), and `help`. Every command but `help` knows `--help`; the program itself also
`--version`; `--verbose` may stand anywhere.

Help lists a command's options by a rank and then by name: a command's own options rank by
their place, `--verbose` ranks with the first of them, and `--help` and `--version` come last.
The options of a command other than `--verbose` and `--help` form its group, which some
refusals name whole in their usage line.
-/
namespace ComponentSync.Cli

/-- What the value of an option must be: a path, which may not be empty; any text; or a count,
an unsigned number of at most 64 bits. -/
inductive ValueKind
  | path
  | text
  | count
  deriving Repr, Inhabited, BEq

/-- An option: its long name, its short letter, the name of its value when it takes one and
what that value must be, its help text, and whether it may be given more than once. -/
structure OptionSpec where
  long : String
  short : Option Char
  value : Option String
  kind : ValueKind
  help : String
  repeatable : Bool
  deriving Repr, Inhabited

/-- An argument: its name, its help text, and whether it may be left out and repeated (shown
as `[NAME]...`) rather than being required once (shown as `<NAME>`). -/
structure ArgumentSpec where
  name : String
  help : String
  many : Bool
  deriving Repr, Inhabited

/-- How an argument is shown in usage lines and help. -/
def ArgumentSpec.display (a : ArgumentSpec) : String :=
  if a.many then "[" ++ a.name ++ "]..." else "<" ++ a.name ++ ">"

/-- A command: its name, what it does, its options and arguments, its subcommands, and whether
it is bare, knowing no option at all (the `help` command). -/
inductive Verb where
  | mk (name about : String) (options : List OptionSpec) (arguments : List ArgumentSpec)
      (verbs : List Verb) (bare : Bool)
  deriving Repr, Inhabited

namespace Verb

def name : Verb → String
  | mk n .. => n

def about : Verb → String
  | mk _ a .. => a

def options : Verb → List OptionSpec
  | mk _ _ o .. => o

def arguments : Verb → List ArgumentSpec
  | mk _ _ _ a .. => a

def verbs : Verb → List Verb
  | mk _ _ _ _ v _ => v

def bare : Verb → Bool
  | mk _ _ _ _ _ b => b

end Verb

def programVersion : String := "0.1.11"

def verboseOption : OptionSpec :=
  ⟨"verbose", some 'v', none, .text, "Log debug details to stderr (overridden by RUST_LOG)",
    false⟩

def helpOption : OptionSpec := ⟨"help", some 'h', none, .text, "Print help", false⟩

def versionOption : OptionSpec := ⟨"version", some 'V', none, .text, "Print version", false⟩

def contextOption : OptionSpec :=
  ⟨"context", none, some "CONTEXT", .path,
    "Component directory (defaults to the current directory)", false⟩

def ignoreOption : OptionSpec :=
  ⟨"ignore", none, some "GLOB", .text, "Extra glob pattern to exclude; may be repeated", true⟩

def showLogOption : OptionSpec :=
  ⟨"show-log", none, none, .text, "Stream the build output", false⟩

def defaultDelay : Nat := 1000

/-- The subcommand that prints help: it takes the names of the commands to describe. -/
def helpVerb : Verb :=
  .mk "help" "Print this message or the help of the given subcommand(s)" []
    [⟨"COMMAND", "Print help for the subcommand(s)", true⟩] [] true

def program : Verb :=
  .mk "odo" "Push local source changes into a running component" [] []
    [.mk "push" "Sync changed files into the component, then build and reload"
       [contextOption, ignoreOption,
        ⟨"force", some 'f', none, .text, "Push every file even if nothing changed", false⟩,
        showLogOption] [] [] false,
     .mk "watch" "Push, then push again whenever the source tree changes"
       [contextOption, ignoreOption,
        ⟨"delay", none, some "DELAY", .count,
          "Quiet period in milliseconds before changes are pushed " ++
          "[default: " ++ toString defaultDelay ++ "]", false⟩,
        showLogOption] [] [] false,
     .mk "status" "Show files that the next push would sync, without contacting the cluster"
       [contextOption, ignoreOption,
        ⟨"json", none, none, .text, "Emit machine-readable JSON", false⟩] [] [] false,
     .mk "config" "View or modify the component's local configuration" [] []
       [.mk "view" "Show every parameter and its current value" [contextOption] [] [] false,
        .mk "set" "Set a parameter" [contextOption]
          [⟨"KEY", "Parameter name (case-insensitive)", false⟩, ⟨"VALUE", "", false⟩] [] false,
        .mk "unset" "Reset a parameter to its default" [contextOption]
          [⟨"KEY", "", false⟩] [] false,
        helpVerb] false,
     helpVerb] false

/-- The options a command accepts: its own, then `--verbose`, `--help`, and at the top
`--version`; a bare command accepts none. -/
def optionsOf (v : Verb) (top : Bool) : List OptionSpec :=
  if v.bare then []
  else v.options ++ [verboseOption, helpOption] ++ (if top then [versionOption] else [])

/-- The group of a command: at the top `--verbose`, below it the command's own options. -/
def groupOf (v : Verb) (top : Bool) : List OptionSpec :=
  if top then [verboseOption] else v.options

/-- How an option is named in messages: `--name` and its value as `<VALUE>`. -/
def OptionSpec.usage (o : OptionSpec) : String :=
  "--" ++ o.long ++ match o.value with
    | some v => " <" ++ v ++ ">"
    | none => ""

/-- How an option is named in help: with its short letter when it has one. -/
def OptionSpec.spec (o : OptionSpec) : String :=
  (match o.short with
    | some c => "-" ++ c.toString ++ ", "
    | none => "    ") ++ o.usage

/-- The name by which help orders options of one rank: the short letter in lower case, marked
`0` when it is a lower-case letter and `1` otherwise, or else the long name. -/
def OptionSpec.helpKey (o : OptionSpec) : String :=
  match o.short with
  | some c => c.toLower.toString ++ (if c.isLower then "0" else "1")
  | none => o.long

/-- The options of a command in the order help lists them, each with its rank. -/
def helpOrder (v : Verb) (top : Bool) : List OptionSpec :=
  let rank (o : OptionSpec) : Nat :=
    if o.long == verboseOption.long then 0
    else if o.long == helpOption.long || o.long == versionOption.long then 999
    else v.options.findIdx (·.long == o.long)
  let before (a b : OptionSpec) : Bool :=
    rank a < rank b || (rank a == rank b && decide (a.helpKey ≤ b.helpKey))
  (optionsOf v top).mergeSort before

/-- The usage line of a command reached by `path` (the names above it, the program first). -/
def usageOf (path : List String) (v : Verb) : String :=
  " ".intercalate path ++ (if v.bare then "" else " [OPTIONS]") ++
    String.join (v.arguments.map fun a => " " ++ a.display) ++
    (if v.verbs.isEmpty then "" else " <COMMAND>")

/-- Lines of a help section: each entry's name padded to the longest, then its help. -/
def helpSection (title : String) (entries : List (String × String)) : String :=
  let width := entries.foldl (fun w (n, _) => max w n.length) 0
  let line (e : String × String) : String :=
    "  " ++ e.1 ++ String.ofList (List.replicate (width - e.1.length + 2) ' ') ++ e.2
  title ++ ":\n" ++ String.join ((entries.map line).map (· ++ "\n"))

def helpOf (path : List String) (v : Verb) (top : Bool) : String :=
  let commands :=
    if v.verbs.isEmpty then ""
    else "\n" ++ helpSection "Commands" (v.verbs.map fun w => (w.name, w.about))
  let arguments :=
    if v.arguments.isEmpty then ""
    else "\n" ++ helpSection "Arguments" (v.arguments.map fun a => (a.display, a.help))
  let options :=
    if v.bare then ""
    else "\n" ++ helpSection "Options" ((helpOrder v top).map fun o => (o.spec, o.help))
  v.about ++ "\n\nUsage: " ++ usageOf path v ++ "\n" ++ commands ++ arguments ++ options

end ComponentSync.Cli
