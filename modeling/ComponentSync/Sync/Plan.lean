import ComponentSync.Config.Settings
import ComponentSync.Ignore
import ComponentSync.Sync.Error
/-!
A push plan: everything one push needs, resolved from a component's settings. It says where the
sources are and which of them are ignored, where they go, whether to send them even when
nothing changed, which commands build and reload the component afterwards, and, for a binary
component, the one file that is sent instead of a scan of the tree.

A local component sends its context directory, with the rules of its ignore file, its
configured ignores and any extra ones. A binary component sends the single file its source path
names, always, from that file's directory. A git component is built in the cluster and has
nothing to push.
-/
/-!
Ignore rules read from the source root: the first of `.odoignore` and `.gitignore` that is a
regular file (links followed) supplies the rules, even when it is empty, and the other is not
read.
-/
namespace ComponentSync

/-- The files that may hold ignore rules, in order of preference. -/
def ignoreFiles : List String := [".odoignore", ".gitignore"]

/-- A rule that does not compile, as a sync failure. -/
def RuleError.toSyncError (e : RuleError) : SyncError :=
  .invalidPattern e.pattern e.error

def RuleSet.extendLines (set : RuleSet) (lines : List String) : Except SyncError RuleSet :=
  (set.extend lines).mapError RuleError.toSyncError

/-- The built-in rules and those of the first ignore file in `root`. -/
def RuleSet.loadFromDir (ws : Workspace) (root : Path) : Except SyncError RuleSet :=
  match ignoreFiles.find? fun name => ws.isFile (root ++ [name]) with
  | none => .ok RuleSet.builtin
  | some name =>
    let p : Path := root ++ [name]
    match ws.readText p with
    | .error e => .error (.io p.render e)
    | .ok text => RuleSet.builtin.extendLines (Text.lines text)

end ComponentSync

namespace ComponentSync

/-- A command run in a container once the files are in place. -/
structure TriggerCommand where
  container : String
  argv : List String
  deriving DecidableEq, Repr

/-- Where files go: the instances a selector matches, a container there, and a directory. Files
deleted locally are also removed below each mirror root. -/
structure SyncTarget where
  selector : String
  container : String
  destination : String
  mirrorRoots : List String
  deriving DecidableEq, Repr

/-- The directories deletions are applied under: the destination, then each mirror root not
already listed. -/
def SyncTarget.deleteRoots (t : SyncTarget) : List String :=
  t.mirrorRoots.foldl (fun roots r => if roots.contains r then roots else roots ++ [r])
    [t.destination]

structure PushPlan where
  sourceRoot : Path
  ignore : RuleSet
  target : SyncTarget
  forcePush : Bool
  build : Option TriggerCommand
  reload : Option TriggerCommand
  /-- Whether build output is shown as it arrives. -/
  showLog : Bool
  /-- Files sent instead of scanning the tree; the index is then neither read nor written. -/
  files : Option (List String)

/-- The plan for pushes after the first: a forced first push (onto fresh resources) does not
force later ones, but an explicit file list is always sent. -/
def PushPlan.followup (p : PushPlan) : PushPlan :=
  { p with forcePush := p.forcePush && p.files.isSome }

/-- The reason given when a component has no name. -/
def unnamedReason : String :=
  "component name is not set; run 'odo config set name <component>'"

/-- A path text below a directory, as the workspace path it names. -/
def Path.below (context : Path) (rel : String) : Path :=
  if rel.startsWith "/" then Path.join [] rel else context.join rel

/-- Whether the last component of a path text names an entry, rather than `.`, `..` or a
directory marked by a trailing `/`. -/
def namesEntry (rel : String) : Bool :=
  match (rel.splitOn "/").getLast? with
  | some last => last != "" && last != "." && last != ".."
  | none => false

/-- The directory and file name of a binary component's file. -/
def binaryLocation (ws : Workspace) (context : Path) (s : ComponentSettings) :
    Except SyncError (Path × String) :=
  let invalid (value reason : String) : SyncError :=
    .config (.invalidValue "sourcepath" value reason)
  match s.sourcePath with
  | none => .error (invalid "" "binary components need a source path")
  | some sp =>
    let path := Path.below context sp
    let shown := if sp.startsWith "/" then sp else context.render ++ "/" ++ sp
    if namesEntry sp && ws.isFile path then
      match path.getLast? with
      | some name => .ok (path.dropLast, name)
      | none => .error (invalid shown "not a file")
    else .error (invalid shown "not a file")

/-- Resolves the plan for the component configured in `context`. -/
def PushPlan.fromSettings (ws : Workspace) (context : Path) (s : ComponentSettings)
    (extraIgnores : List String) (forcePush : Bool) : Except SyncError PushPlan := do
  let selector ← match s.selector with
    | some sel => pure sel
    | none => throw (.config (.invalidValue "name" "" unnamedReason))
  let destination := s.destinationDir
  let target : SyncTarget := ⟨selector, s.buildContainer, destination, s.mirrorRoots⟩
  let build := s.build.map fun spec =>
    ⟨s.buildContainer, { spec with workdir := some (spec.workdir.getD destination) }.toArgv⟩
  let reload := s.reload.map fun spec => ⟨s.runContainer, spec.toArgv⟩
  match s.sourceType with
  | .local_ =>
    let rules ← RuleSet.loadFromDir ws context
    let rules ← rules.extendLines s.ignores
    let rules ← rules.extendLines extraIgnores
    return ⟨context, rules, target, forcePush, build, reload, false, none⟩
  | .binary =>
    let (root, file) ← binaryLocation ws context s
    return ⟨root, RuleSet.builtin, target, true, build, reload, false, some [file]⟩
  | .git =>
    throw (.config (.invalidValue "sourcetype" "git"
      "git components are built in the cluster and cannot be pushed"))

end ComponentSync
