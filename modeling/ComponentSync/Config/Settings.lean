/-!
The settings of a component: its name, the application it belongs to, the cluster namespace,
where its sources come from and go to, the containers and commands that build and run it, its
ports, extra ignore rules and the size of its project-files volume.

A component's sources land in `destination`, by default `/projects/<name>` (or `/projects`
while it has no name), and it is selected in the cluster by the label
`app.odo.dev/component=<name>`.
-/
namespace ComponentSync

inductive SourceType
  | local_
  | binary
  | git
  deriving DecidableEq, Repr, Inhabited

def SourceType.name : SourceType → String
  | .local_ => "local"
  | .binary => "binary"
  | .git => "git"

/-- Reads a source type by its name, in any case of ASCII letters. -/
def SourceType.parse (s : String) : Except String SourceType :=
  let lower := String.ofList (s.toList.map Char.toLower)
  match lower with
  | "local" => .ok .local_
  | "binary" => .ok .binary
  | "git" => .ok .git
  | other => .error ("unknown source type '" ++ other ++ "'; expected: local, binary, git")

/-- A shell command and the directory it runs in. -/
structure CommandSpec where
  command : String
  workdir : Option String
  deriving DecidableEq, Repr

/-- A text as one shell word: in single quotes, each quote inside written `'\''`. -/
def shellQuote (value : String) : String :=
  "'" ++ String.join (value.toList.map fun c => if c == '\'' then "'\\''" else c.toString) ++ "'"

/-- The argument vector that runs a command through `sh -c`, changing directory first when a
working directory is set. -/
def CommandSpec.toArgv (spec : CommandSpec) : List String :=
  let script := match spec.workdir with
    | some dir => "cd " ++ shellQuote dir ++ " && " ++ spec.command
    | none => spec.command
  ["sh", "-c", script]

structure ComponentSettings where
  name : Option String
  application : String
  project : Option String
  sourceType : SourceType
  sourcePath : Option String
  image : Option String
  buildContainer : String
  runContainer : String
  destination : Option String
  mirrorRoots : List String
  build : Option CommandSpec
  run : Option CommandSpec
  reload : Option CommandSpec
  ports : List Nat
  ignores : List String
  storageSize : String
  deriving DecidableEq, Repr

/-- The settings of a component nobody has configured yet. -/
def ComponentSettings.default : ComponentSettings :=
  { name := none, application := "app", project := none, sourceType := .local_
    sourcePath := none, image := none, buildContainer := "build", runContainer := "run"
    destination := none, mirrorRoots := [], build := none, run := none, reload := none
    ports := [], ignores := [], storageSize := "1Gi" }

instance : Inhabited ComponentSettings := ⟨ComponentSettings.default⟩

def projectsRoot : String := "/projects"

def componentLabel : String := "app.odo.dev/component"

def ComponentSettings.destinationDir (s : ComponentSettings) : String :=
  match s.destination, s.name with
  | some d, _ => d
  | none, some n => projectsRoot ++ "/" ++ n
  | none, none => projectsRoot

/-- The label selector of the component's workloads, once it has a name. -/
def ComponentSettings.selector (s : ComponentSettings) : Option String :=
  s.name.map fun n => componentLabel ++ "=" ++ n

end ComponentSync
