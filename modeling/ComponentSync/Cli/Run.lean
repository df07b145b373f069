import ComponentSync.Cli.Parse
import ComponentSync.Cli.Status
import ComponentSync.Sync.Plan
/-!
Running the command line against a workspace: the program's words, its working directory and
home, and the present moment go in; the exit code, what was printed on standard output and
standard error, and the workspace as the command left it come out.

Every failure is reported under what was being done. Commands that reach the cluster (`push`
and `watch`) first read the component's configuration and the user's preferences; this runner
has no cluster to reach, so they end there with a connection failure.
-/
namespace ComponentSync.Cli

structure Environment where
  workspace : Workspace
  /-- The working directory. -/
  cwd : Path
  home : Path
  now : Time.Instant

/-- What a command leaves: its exit code, its output on both streams, and the workspace. -/
structure Outcome where
  code : Nat
  stdout : String
  stderr : String
  workspace : Workspace

/-- The canonical path a path leads to, every link followed; it must exist. -/
def canonicalPath (ws : Workspace) (p : Path) : Except OsError Path := do
  let q ← ws.resolve p true
  match ws.get? q with
  | some _ => return q
  | none => throw .notFound

/-- The component directory: `--context`, or the working directory, made canonical. -/
def resolveContext (env : Environment) (given : Option String) : Except Failure Path :=
  let shown := given.getD env.cwd.render
  let path := match given with
    | some dir => if dir.startsWith "/" then Path.join [] dir else env.cwd.join dir
    | none => env.cwd
  (canonicalPath env.workspace path).mapError fun e =>
    Failure.within ("context directory " ++ shown ++ " is not accessible") [e.message]

/-- The settings of a component that has a name. -/
def loadNamedSettings (ws : Workspace) (context : Path) : Except Failure ComponentSettings := do
  let config ← (loadConfig ws context).mapError
    (Failure.within "failed to load component config" ·.chain)
  if config.component.name.isNone then
    throw (Failure.plain "component name is not set; run 'odo config set name <component>'")
  return config.component

/-- The causes of failing to reach a cluster when no cluster configuration can be found. -/
def unreachableCluster (home : Path) : List String :=
  let kubeconfig := "failed to read kubeconfig from '" ++ home.render ++
    "/.kube/config': No such file or directory (os error 2)"
  let inferred := "failed to infer config: in-cluster: (failed to read an incluster " ++
    "environment variable: environment variable not found), kubeconfig: (" ++ kubeconfig ++ ")"
  ["unable to connect to the cluster: " ++ inferred, inferred, kubeconfig,
    "No such file or directory (os error 2)"]

/-- The steps of `push` and `watch` before the cluster is reached: the component's settings,
its push plan, and the user's preferences. -/
def prepareComponent (env : Environment) (context : Option String) (ignores : List String)
    (force : Bool) : Except Failure Unit := do
  let context ← resolveContext env context
  let settings ← loadNamedSettings env.workspace context
  let _ ← (PushPlan.fromSettings env.workspace context settings ignores force).mapError
    (Failure.within "invalid component config" ·.chain)
  let _ ← (loadPreference env.workspace env.home).mapError
    (Failure.within "failed to load preferences" ·.chain)
  throw (Failure.within "failed to connect to the cluster" (unreachableCluster env.home))

/-- The table of `config view`: each parameter, its value, and what it is. -/
def parameterTable (s : ComponentSettings) : String :=
  Table.blank (["PARAMETER", "CURRENT_VALUE", "DESCRIPTION"] ::
    (supportedParameters.zip s.values).map fun ((key, description), (_, value)) =>
      [key, value.getD "", description])

/-- What a command prints on success, and the workspace it leaves. -/
def Command.perform (env : Environment) : Command → Except Failure (String × Workspace)
  | .configView context => do
    let context ← resolveContext env context
    let config ← (loadConfig env.workspace context).mapError
      (Failure.within "failed to load component config" ·.chain)
    return (parameterTable config.component ++ "\n", env.workspace)
  | .configSet key value context => do
    let context ← resolveContext env context
    let (ws, _) ← (setParameter env.workspace context key value env.now).mapError
      (Failure.within ("failed to set '" ++ key ++ "'") ·.chain)
    return ("Local config was successfully updated: " ++ key ++ " = " ++ value ++ "\n", ws)
  | .configUnset key context => do
    let context ← resolveContext env context
    let (ws, _) ← (unsetParameter env.workspace context key env.now).mapError
      (Failure.within ("failed to unset '" ++ key ++ "'") ·.chain)
    return ("Local config was successfully updated: " ++ key ++ " unset\n", ws)
  | .status context ignores json => do
    let context ← resolveContext env context
    let report ← StatusReport.build env.workspace context ignores env.now
    let text := if json then report.toJson ++ "\n" else report.toText programVersion
    return (text, env.workspace)
  | .push context ignores force _ => do
    prepareComponent env context ignores force
    return ("", env.workspace)
  | .watch context ignores _ _ => do
    prepareComponent env context ignores false
    return ("", env.workspace)

/-- Runs the program with the words after its name. -/
def run (env : Environment) (words : List String) : Outcome :=
  match Command.parse words with
  | .answer text => ⟨0, text, "", env.workspace⟩
  | .refuse text => ⟨2, "", text, env.workspace⟩
  | .run command =>
    match command.perform env with
    | .ok (out, ws) => ⟨0, out, "", ws⟩
    | .error f => ⟨1, "", f.render, env.workspace⟩

end ComponentSync.Cli
