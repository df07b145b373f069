import ComponentSync.Cli.Grammar
import ComponentSync.Config.Parameters
/-!
Reading the command line against its grammar. Options are written `--name value`,
`--name=value`, or as short letters, which may be grouped (`-vf`) and may carry their value
(`-xVALUE`); `--` ends the options. A misspelled option or command is answered with the
closest known name when one is close enough, by Jaro similarity above 0.7.

An option that takes a value is settled only when the next option, argument or the end of the
line comes: only then is its value checked, and a second use of it refused. A refusal for an
unknown word settles it quietly, so that the unknown word is what gets reported.

A command line that asks for help or the version is answered at once, on standard output. One
that cannot be read is refused with a message on standard error and the code 2. A command
that needs a subcommand and gets nothing at all prints its help there instead.
-/
namespace ComponentSync.Cli

/-- A command to run, with everything the command line gave it. -/
inductive Command
  | push (context : Option String) (ignores : List String) (force showLog : Bool)
  | watch (context : Option String) (ignores : List String) (delay : Nat) (showLog : Bool)
  | status (context : Option String) (ignores : List String) (json : Bool)
  | configView (context : Option String)
  | configSet (key value : String) (context : Option String)
  | configUnset (key : String) (context : Option String)
  deriving Repr

/-- What reading the command line gives: a command, a text for standard output (help or the
version), or a refusal for standard error. -/
inductive Parsed
  | run (c : Command)
  | answer (text : String)
  | refuse (text : String)
  deriving Repr

/-- The Jaro similarity of two texts, between 0 and 1. -/
def jaro (a b : String) : Float :=
  let xs := a.toList.toArray
  let ys := b.toList.toArray
  if xs.isEmpty && ys.isEmpty then 1.0
  else if xs.isEmpty || ys.isEmpty then 0.0
  else
    let range := (max xs.size ys.size / 2) - 1
    let (aFlags, bFlags, hits) := (List.range xs.size).foldl (fun (af, bf, m) i =>
      let lo := i - range
      let hi := min ys.size (i + range + 1)
      match (List.range hi).find? (fun j => lo ≤ j && xs[i]? == ys[j]? && !(bf.getD j false)) with
      | some j => (af.set! i true, bf.set! j true, m + 1)
      | none => (af, bf, m)) (Array.replicate xs.size false, Array.replicate ys.size false, 0)
    if hits == 0 then 0.0
    else
      let left := (List.range xs.size).filter (aFlags.getD · false) |>.map (xs.getD · ' ')
      let right := (List.range ys.size).filter (bFlags.getD · false) |>.map (ys.getD · ' ')
      let transpositions := ((left.zip right).filter fun (p, q) => p != q).length / 2
      let m := hits.toFloat
      (m / xs.size.toFloat + m / ys.size.toFloat + (m - transpositions.toFloat) / m) / 3.0

/-- The known names like `given` (similarity above 0.7), least alike first; of equally alike
names the one listed first comes first. -/
def similar (given : String) (names : List String) : List String :=
  let scored := names.filterMap fun n =>
    let s := jaro given n
    if s > 0.7 then some (s, n) else none
  (scored.mergeSort fun a b => a.1 ≤ b.1).map (·.2)

/-- The known name most like `given`, if one is close enough: the last of `similar`. -/
def closest (given : String) (names : List String) : Option String :=
  (similar given names).getLast?

/-- A refusal as the command line writes it: the message, tips, the usage line, and, for a
command that knows `--help`, where to find more. -/
structure Refusal where
  message : String
  tips : List String
  usage : Option String
  pointsToHelp : Bool

def Refusal.render (r : Refusal) : String :=
  "error: " ++ r.message ++
    (if r.tips.isEmpty then "" else "\n" ++ String.join (r.tips.map ("\n  tip: " ++ ·))) ++
    (match r.usage with
      | some u => "\n\nUsage: " ++ u
      | none => "") ++
    (if r.pointsToHelp then "\n\nFor more information, try '--help'.\n" else "\n")

/-- The command being read: the names leading to it (the program first), its grammar, and
whether it is the program itself. -/
structure Scope where
  path : List String
  verb : Verb
  top : Bool

namespace Scope

def options (s : Scope) : List OptionSpec := optionsOf s.verb s.top

def group (s : Scope) : List OptionSpec := groupOf s.verb s.top

def inGroup (s : Scope) (o : OptionSpec) : Bool := s.group.any (·.long == o.long)

/-- The usage line of the command as its help shows it. -/
def usage (s : Scope) : String := usageOf s.path s.verb

def help (s : Scope) : String := helpOf s.path s.verb s.top

def refuse (s : Scope) (message : String) (tips : List String) (usage : Option String) :
    Parsed :=
  .refuse (Refusal.render ⟨message, tips, usage, !s.verb.bare⟩)

def enter (s : Scope) (sub : Verb) : Scope := ⟨s.path ++ [sub.name], sub, false⟩

end Scope

/-- Something a command has matched: one of its options, or its group, which is matched with
the first of its options. -/
inductive Seen
  | option (o : OptionSpec)
  | group

/-- Whether a match is of the option named `long`. -/
def Seen.isOption (long : String) : Seen → Bool
  | .option o => o.long == long
  | .group => false

def Seen.isGroup : Seen → Bool
  | .option _ => false
  | .group => true

/-- What has been read for one command so far. -/
structure Reading where
  /-- What has been matched, in the order first matched. -/
  seen : List Seen
  /-- The values options took, in order, by long name. -/
  taken : List (String × String)
  arguments : List String
  /-- An option read but not yet settled, with the values it has taken. -/
  pending : Option (OptionSpec × List String)
  /-- Whether the pending option still waits for its value. -/
  awaiting : Bool
  /-- Whether everything left is an argument (after `--`). -/
  raw : Bool

def Reading.empty : Reading := ⟨[], [], [], none, false, false⟩

def Reading.has (r : Reading) (o : OptionSpec) : Bool := r.seen.any (·.isOption o.long)

/-- Records a match of an option, and of the group with the first of its options. -/
def Reading.note (s : Scope) (r : Reading) (o : OptionSpec) : Reading :=
  let r := if r.has o then r else { r with seen := r.seen ++ [.option o] }
  if s.inGroup o && !r.seen.any Seen.isGroup then { r with seen := r.seen ++ [.group] } else r

def Reading.forget (r : Reading) (o : OptionSpec) : Reading :=
  { r with seen := r.seen.filter (!·.isOption o.long) }

/-- The usage line fitted to what was matched: the options named in `used` (those of the
group as the group, when it is among them), then the required arguments. -/
def fittedUsage (s : Scope) (used : List Seen) : String :=
  let grouped := used.any Seen.isGroup
  let loose := used.filterMap fun
    | .option o => if grouped && s.inGroup o then none else some o.usage
    | .group => none
  let opts := loose.foldl (fun acc u => if acc.contains u then acc else acc ++ [u]) []
  let groups :=
    if grouped then ["<" ++ "|".intercalate (s.group.map (·.usage)) ++ ">"] else []
  let required := (s.verb.arguments.filter (!·.many)).map (·.display)
  " ".intercalate s.path ++ String.join ((opts ++ groups ++ required).map (" " ++ ·)) ++
    (if s.verb.verbs.isEmpty then "" else " <COMMAND>")

/-- The usage line for a refusal given what was matched: the help's own when nothing was. -/
def usageAfter (s : Scope) (used : List Seen) : String :=
  if used.isEmpty then s.usage else fittedUsage s used

/-- The refusal of an option that needs a value and got none. -/
def needsValue (s : Scope) (o : OptionSpec) : Parsed :=
  s.refuse ("a value is required for '" ++ o.usage ++ "' but none was supplied") [] none

/-- The refusal of an option given twice that may be given once. -/
def givenTwice (s : Scope) (o : OptionSpec) : Parsed :=
  s.refuse ("the argument '" ++ o.usage ++ "' cannot be used multiple times") [] (some s.usage)

def countMax : Nat := Nat.pow 2 64 - 1

/-- The refusal of a value its option does not take, if it does not. -/
def checkValue (s : Scope) (o : OptionSpec) (text : String) : Option Parsed :=
  match o.kind with
  | .path => if text.isEmpty then some (needsValue s o) else none
  | .text => none
  | .count =>
    match readUnsigned countMax text with
    | .ok _ => none
    | .error f =>
      some (s.refuse ("invalid value '" ++ text ++ "' for '" ++ o.usage ++ "': " ++ f.text) []
        none)

/-- Settles an option with the values it took: it needs one; one that may be given once and
was given before is refused (and forgotten); otherwise it is matched, and then its value is
checked. The reading is kept even when refused, as a quiet settling needs it. -/
def settle (s : Scope) (r : Reading) (o : OptionSpec) (values : List String) :
    Reading × Option Parsed :=
  match values with
  | [] => (r, some (needsValue s o))
  | text :: _ =>
    if !o.repeatable && r.has o then (r.forget o, some (givenTwice s o))
    else
      let r := r.note s o
      match checkValue s o text with
      | some refusal => (r, some refusal)
      | none => ({ r with taken := r.taken ++ [(o.long, text)] }, none)

def Reading.resolve (s : Scope) (r : Reading) : Reading × Option Parsed :=
  match r.pending with
  | none => (r, none)
  | some (o, values) => settle s { r with pending := none } o values

def Reading.settled (s : Scope) (r : Reading) : Except Parsed Reading :=
  match r.resolve s with
  | (r, none) => .ok r
  | (_, some refusal) => .error refusal

/-- Takes an option with its value given in the same word. -/
def Reading.takeValue (s : Scope) (r : Reading) (o : OptionSpec) (text : String) :
    Except Parsed Reading := do
  let r ← r.settled s
  match settle s r o [text] with
  | (r, none) => .ok { r with awaiting := false }
  | (_, some refusal) => .error refusal

/-- Starts an option whose value is the next word. -/
def Reading.expectValue (s : Scope) (r : Reading) (o : OptionSpec) : Except Parsed Reading := do
  let r ← r.settled s
  .ok { r with pending := some (o, []), awaiting := true }

/-- Takes a flag: `--help` and `--version` are answered at once; another flag given twice is
refused. -/
def Reading.takeFlag (s : Scope) (r : Reading) (o : OptionSpec) : Except Parsed Reading := do
  let r ← r.settled s
  if o.long == helpOption.long then .error (.answer s.help)
  else if o.long == versionOption.long then .error (.answer ("odo " ++ programVersion ++ "\n"))
  else if r.has o then .error (givenTwice s o)
  else .ok { r.note s o with awaiting := false }

/-- The refusal of a flag given a value (`--flag=value`); the usage line names what was
matched and the flag. -/
def extraValue (s : Scope) (r : Reading) (o : OptionSpec) (extra : String) : Parsed :=
  s.refuse ("unexpected value '" ++ extra ++ "' for '--" ++ o.long ++
    "' found; no more were expected") [] (some (fittedUsage s (r.seen ++ [Seen.option o])))

/-- The option of a subcommand named in the words still to come that is most like `name`:
the subcommand named earliest wins. -/
def laterOption (s : Scope) (name : String) (rest : List String) : Option (String × String) :=
  let found := s.verb.verbs.filterMap fun sub =>
    match closest name ((optionsOf sub false).map (·.long)), rest.idxOf? sub.name with
    | some c, some i => some (i, c, sub.name)
    | _, _ => none
  (found.foldl (fun best x =>
    match best with
    | some b => if x.1 < b.1 then some x else best
    | none => some x) none).map (·.2)

/-- The refusal of an unknown long option `--name`, with the words still to come. A close
option of the command is suggested, and then counts as matched for the usage line; failing
that, a close option of a subcommand named later on the line. -/
def unknownLong (s : Scope) (r : Reading) (name : String) (rest : List String) : Parsed :=
  let word := "--" ++ name
  match closest name (s.options.map (·.long)) with
  | some c =>
    let r := match s.options.find? (·.long == c) with
      | some o => if r.has o then r else { r with seen := r.seen ++ [Seen.option o] }
      | none => r
    s.refuse ("unexpected argument '" ++ word ++ "' found")
      ["a similar argument exists: '--" ++ c ++ "'"] (some (usageAfter s r.seen))
  | none =>
    match laterOption s name rest with
    | some (c, sub) =>
      s.refuse ("unexpected argument '" ++ word ++ "' found") ["'" ++ sub ++ " --" ++ c ++ "' exists"]
        (some (usageAfter s r.seen))
    | none =>
      let tips := if s.verb.arguments.isEmpty then []
        else ["to pass '" ++ word ++ "' as a value, use '-- " ++ word ++ "'"]
      s.refuse ("unexpected argument '" ++ word ++ "' found") tips (some (usageAfter s r.seen))

def unknownShort (s : Scope) (c : Char) : Parsed :=
  let word := "-" ++ c.toString
  let tips := if !s.verb.arguments.isEmpty then
      ["to pass '" ++ word ++ "' as a value, use '-- " ++ word ++ "'"]
    else []
  s.refuse ("unexpected argument '" ++ word ++ "' found") tips (some s.usage)

/-- The refusal of a word that no argument of the command takes. After `--`, a subcommand's
name is pointed out; a command with subcommands suggests those like the word. -/
def unexpectedWord (s : Scope) (r : Reading) (word : String) : Parsed :=
  let names := s.verb.verbs.map (·.name)
  if r.raw && names.contains word then
    s.refuse ("unexpected argument '" ++ word ++ "' found")
      ["subcommand '" ++ word ++ "' exists; to use it, remove the '--' before it"] (some s.usage)
  else if names.isEmpty then
    s.refuse ("unexpected argument '" ++ word ++ "' found") [] (some s.usage)
  else
    let tips := match similar word names with
      | [] => []
      | [one] => ["a similar subcommand exists: '" ++ one ++ "'"]
      | many => ["some similar subcommands exist: " ++
          ", ".intercalate (many.map fun n => "'" ++ n ++ "'")]
    s.refuse ("unrecognized subcommand '" ++ word ++ "'") tips (some s.usage)

/-- The end of a command line: the pending option is settled; then a command that needs a
subcommand got none, or arguments are missing, or the command is complete. -/
def finishReading (s : Scope) (r : Reading) : Except Parsed (Scope × Reading) := do
  let r ← r.settled s
  if !s.verb.verbs.isEmpty then
    if r.seen.isEmpty then .error (.refuse s.help)
    else
      .error (s.refuse ("'" ++ " ".intercalate s.path ++
        "' requires a subcommand but one was not provided\n  [subcommands: " ++
        ", ".intercalate (s.verb.verbs.map (·.name)) ++ "]") [] (some s.usage))
  else
    let missing := s.verb.arguments.drop r.arguments.length
    if missing.isEmpty then .ok (s, r)
    else
      let used := r.seen.filter (!·.isGroup)
      .error (s.refuse ("the following required arguments were not provided:" ++
        String.join (missing.map fun a => "\n  " ++ a.display)) []
        (some (fittedUsage s used)))

/-- The help asked for by `help NAME...` from the command of `s`. -/
def helpFor (s : Scope) : List String → Parsed
  | [] => .answer s.help
  | name :: rest =>
    match s.verb.verbs.find? (·.name == name) with
    | some sub => helpFor (s.enter sub) rest
    | none => s.refuse ("unrecognized subcommand '" ++ name ++ "'") [] (some s.usage)

/-- Reads the short letters of one word: flags are taken one by one; an option takes the rest
of the word (after an optional `=`) as its value, or the next word when nothing is left. -/
def readLetters (s : Scope) (r : Reading) : List Char → Except Parsed Reading
  | [] => .ok r
  | c :: after =>
    match s.options.find? (·.short == some c) with
    | none => .error (unknownShort s c)
    | some o =>
      match o.value with
      | none => do
        let r ← r.takeFlag s o
        readLetters s r after
      | some _ =>
        if after.isEmpty then r.expectValue s o
        else
          let attached := match after with
            | '=' :: v => v
            | v => v
          r.takeValue s o (String.ofList attached)

/-- Takes a word as an argument of the command, or refuses it when every argument is taken. -/
def Reading.argument (s : Scope) (r : Reading) (word : String) : Except Parsed Reading :=
  if r.arguments.length < s.verb.arguments.length then do
    let r ← r.settled s
    .ok { r with arguments := r.arguments ++ [word], awaiting := false }
  else
    let (r, _) := r.resolve s
    .error (unexpectedWord s r word)

/-- Reads the words of a command line for the command of `s`, descending into subcommands;
gives the command reached and what was read for it. -/
def readWords (s : Scope) (r : Reading) : List String → Except Parsed (Scope × Reading)
  | [] => finishReading s r
  | word :: rest =>
    if r.raw then do
      let r ← r.argument s word
      readWords s r rest
    else
      match s.verb.verbs.find? (·.name == word) with
      | some sub =>
        if sub.bare then .error (helpFor s rest)
        else readWords (s.enter sub) Reading.empty rest
      | none =>
        if word == "--" then readWords s { r with raw := true } rest
        else if word.startsWith "--" then
          let body := String.ofList (word.toList.drop 2)
          let (name, inline) := match body.splitOn "=" with
            | [n] => (n, none)
            | n :: more => (n, some ("=".intercalate more))
            | [] => (body, none)
          match s.options.find? (·.long == name) with
          | none =>
            let (r, _) := r.resolve s
            .error (unknownLong s r name rest)
          | some o =>
            match o.value, inline with
            | none, some extra => .error (extraValue s r o extra)
            | none, none => do
              let r ← r.takeFlag s o
              readWords s r rest
            | some _, some text => do
              let r ← r.takeValue s o text
              readWords s r rest
            | some _, none => do
              let r ← r.expectValue s o
              readWords s r rest
        else if word.startsWith "-" && word != "-" then do
          let r ← readLetters s r (word.toList.drop 1)
          readWords s r rest
        else if r.awaiting then
          let pending := r.pending.map fun (o, values) => (o, values ++ [word])
          readWords s { r with pending := pending, awaiting := false } rest
        else do
          let r ← r.argument s word
          readWords s r rest

/-- The value of an option as read, if given. -/
def Reading.value (r : Reading) (long : String) : Option String :=
  (r.taken.find? (·.1 == long)).map (·.2)

def Reading.flag (r : Reading) (long : String) : Bool :=
  r.seen.any (·.isOption long)

/-- The values of an option given any number of times. -/
def Reading.values (r : Reading) (long : String) : List String :=
  r.taken.filterMap fun (l, v) => if l == long then some v else none

def programScope : Scope := ⟨["odo"], program, true⟩

/-- Reads a command line (the words after the program's name). -/
def Command.parse (words : List String) : Parsed :=
  match readWords programScope Reading.empty words with
  | .error p => p
  | .ok (s, r) =>
    let context := r.value "context"
    let ignores := r.values "ignore"
    let argument (i : Nat) : String := r.arguments.getD i ""
    match s.path with
    | [_, "push"] => .run (.push context ignores (r.flag "force") (r.flag "show-log"))
    | [_, "watch"] =>
      -- a delay read has passed its check, so it reads as a count
      let delay := match r.value "delay" with
        | some text => (readUnsigned countMax text).toOption.getD defaultDelay
        | none => defaultDelay
      .run (.watch context ignores delay (r.flag "show-log"))
    | [_, "status"] => .run (.status context ignores (r.flag "json"))
    | [_, "config", "view"] => .run (.configView context)
    | [_, "config", "set"] => .run (.configSet (argument 0) (argument 1) context)
    | [_, "config", "unset"] => .run (.configUnset (argument 0) context)
    | _ => .answer programScope.help

end ComponentSync.Cli
