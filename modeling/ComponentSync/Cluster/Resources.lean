import ComponentSync.Cluster.Error
import ComponentSync.Config.Settings
import ComponentSync.Yaml.Emit
/-!
The cluster objects of a component, as the documents sent to the API server: its namespace, a
claim for the volume that holds the project files, a deployment of one pod with a build
container (kept idle) and a run container (running the run command, or idle), both mounting the
volume at `/projects`, and, when the component has ports, a service for them.

Every object carries two labels, the component's name and the application it belongs to.
-/
namespace ComponentSync

def applicationLabel : String := "app.kubernetes.io/part-of"

/-- The name of the volume holding the project files, inside the pod. -/
def projectVolume : String := "odo-projects"

/-- What a container runs when it has nothing to do. -/
def idleCommand : List String := ["sh", "-c", "tail -f /dev/null"]

/-- The name of the claim for a component's project files. -/
def claimName (component : String) : String := component ++ "-project-files"

/-- The labels of a component's objects, sorted by key. -/
def componentLabels (s : ComponentSettings) (component : String) : List (String × String) :=
  [(applicationLabel, s.application), (componentLabel, component)]

def Value.ofPairs (pairs : List (String × String)) : Value :=
  .map (pairs.map fun (k, v) => (k, .str v))

/-- The component's name, which every object but the namespace needs. -/
def componentName (s : ComponentSettings) : Except ClusterError String :=
  match s.name with
  | some n => .ok n
  | none => .error .missingName

/-- The metadata of a named object in a namespace. -/
def objectMeta (s : ComponentSettings) (component name ns : String) : Value :=
  .map [("labels", Value.ofPairs (componentLabels s component)), ("name", .str name),
    ("namespace", .str ns)]

def namespaceObject (name : String) : Value :=
  .map [("apiVersion", .str "v1"), ("kind", .str "Namespace"),
    ("metadata", .map [("name", .str name)])]

def projectFilesClaim (s : ComponentSettings) (ns : String) : Except ClusterError Value := do
  let component ← componentName s
  return .map [("apiVersion", .str "v1"), ("kind", .str "PersistentVolumeClaim"),
    ("metadata", objectMeta s component (claimName component) ns),
    ("spec", .map [("accessModes", Value.strs ["ReadWriteOnce"]),
      ("resources", .map [("requests", .map [("storage", .str s.storageSize)])])])]

def deploymentObject (s : ComponentSettings) (ns : String) : Except ClusterError Value := do
  let component ← componentName s
  let image ← match s.image with
    | some i => pure i
    | none => throw (.missingImage component)
  let mount : Value := .seq [.map [("mountPath", .str projectsRoot), ("name", .str projectVolume)]]
  let ports : List (String × Value) :=
    if s.ports.isEmpty then []
    else [("ports", .seq (s.ports.map fun p =>
      .map [("containerPort", .int (Int.ofNat p)), ("protocol", .str "TCP")]))]
  let runCommand := (s.run.map CommandSpec.toArgv).getD idleCommand
  let build : Value := .map [("command", Value.strs idleCommand), ("image", .str image),
    ("name", .str s.buildContainer), ("volumeMounts", mount)]
  let run : Value := .map ([("command", Value.strs runCommand), ("image", .str image),
    ("name", .str s.runContainer)] ++ ports ++ [("volumeMounts", mount)])
  let labels := Value.ofPairs (componentLabels s component)
  return .map [("apiVersion", .str "apps/v1"), ("kind", .str "Deployment"),
    ("metadata", objectMeta s component component ns),
    ("spec", .map [("replicas", .int 1),
      ("selector", .map [("matchLabels", Value.ofPairs [(componentLabel, component)])]),
      ("strategy", .map [("type", .str "Recreate")]),
      ("template", .map [("metadata", .map [("labels", labels)]),
        ("spec", .map [("containers", .seq [build, run]),
          ("volumes", .seq [.map [("name", .str projectVolume),
            ("persistentVolumeClaim", .map [("claimName", .str (claimName component))])]])])])])]

/-- The service exposing the component's ports, when it has any. -/
def serviceObject (s : ComponentSettings) (ns : String) : Except ClusterError (Option Value) := do
  let component ← componentName s
  if s.ports.isEmpty then return none
  let ports := s.ports.map fun p =>
    Value.map [("name", .str ("port-" ++ toString p)), ("port", .int (Int.ofNat p)),
      ("protocol", .str "TCP"), ("targetPort", .int (Int.ofNat p))]
  return some (.map [("apiVersion", .str "v1"), ("kind", .str "Service"),
    ("metadata", objectMeta s component component ns),
    ("spec", .map [("ports", .seq ports),
      ("selector", Value.ofPairs [(componentLabel, component)])])])

end ComponentSync
