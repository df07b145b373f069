import ComponentSync.Cluster.Api
import ComponentSync.Target.Basic
import ComponentSync.Archive.Tar
import ComponentSync.Deflate.Gzip
import ComponentSync.Text.Lossy
import ComponentSync.Text.Blank
import ComponentSync.Config.Preference
/-!
A target backed by a cluster's API server, scoped to one namespace.

A running instance is the first pod matched by the selector whose phase is `Running` and that
is not being deleted. Until one shows up the pods are listed again after each poll interval;
when the push timeout passes first, the wait fails. A timeout of zero fails at once.

Files are moved with commands: deletions run `rm -rf`, and an archive is sent gzip-compressed
on the standard input of a command that reads exactly its length and unpacks it. Commands run
quietly report, when they fail with an exit code and printed something on standard error, that
text (trimmed) instead of the status message.
-/
namespace ComponentSync

/-- A client of a cluster, scoped to one namespace. -/
structure KubeClient where
  namespace_ : String
  pushTimeout : Time.Duration
  pollInterval : Time.Duration

/-- A client with the timing of the given preferences. -/
def KubeClient.ofPreference (ns : String) (p : Preference) : KubeClient :=
  ⟨ns, p.pushTimeout, p.pollInterval⟩

def KubeClient.podsPath (c : KubeClient) : String :=
  "/api/v1/namespaces/" ++ c.namespace_ ++ "/pods"

/-- The name of the first running pod that is not being deleted in a pod list. -/
def runningPodName (list : Value) : Option String :=
  ((list.field "items").map Value.items |>.getD []).findSome? fun pod =>
    let phase := (pod.field "status").bind (·.field "phase") |>.bind Value.text?
    let info := pod.field "metadata"
    let deleting := match info.bind (·.field "deletionTimestamp") with
      | none | some .null => false
      | some _ => true
    if phase == some "Running" && !deleting then
      some ((info.bind (·.field "name") |>.bind Value.text?).getD "")
    else none

/-- Lists the pods of a selector once, and picks a running one. -/
def KubeClient.runningPod {σ : Type} (c : KubeClient) (srv : ApiServer σ) (selector : String) :
    StateM σ (Except TargetError (Option String)) := do
  let r ← srv.call (ApiRequest.get c.podsPath [("labelSelector", selector)])
  return match r with
    | .ok list => .ok (runningPodName list)
    | .error f => .error (.backend ("listing pods for '" ++ selector ++ "'") f.render)

def Time.Duration.nanosTotal (d : Time.Duration) : Nat := d.secs * 1000000000 + d.nanos

/-- How many listings fit in the push timeout, one at the start and one after each interval. -/
def KubeClient.listings (c : KubeClient) : Nat :=
  let step := max c.pollInterval.nanosTotal 1
  (c.pushTimeout.nanosTotal + step - 1) / step

/-- Waits for a running pod matched by the selector. -/
def KubeClient.resolve {σ : Type} (c : KubeClient) (srv : ApiServer σ) (selector : String) :
    StateM σ (Except TargetError Instance) :=
  go c.listings
where
  go : Nat → StateM σ (Except TargetError Instance)
    | 0 => return .error (.timeout selector c.pushTimeout)
    | n + 1 => do
      match ← c.runningPod srv selector with
      | .error e => return .error e
      | .ok (some name) => return .ok ⟨name, some c.namespace_⟩
      | .ok none => go n

/-- The request that runs a command in a container of an instance. -/
def KubeClient.execRequest (c : KubeClient) (inst : Instance) (container : String)
    (command : List String) (withInput : Bool) : ApiRequest :=
  let query := (if withInput then [("stdin", "true")] else []) ++
    [("stdout", "true"), ("stderr", "true"), ("container", container)] ++
    command.map fun a => ("command", a)
  ApiRequest.get (c.podsPath ++ "/" ++ inst.name ++ "/exec") query

/-- Runs a command: its output chunks, and how it ended. -/
def KubeClient.exec {σ : Type} (c : KubeClient) (srv : ApiServer σ) (inst : Instance)
    (container : String) (command : List String) (input : Option ByteArray) :
    StateM σ (List (OutputStream × ByteArray) × Except TargetError Unit) := do
  let r := c.execRequest inst container command input.isSome
  let context := "exec in " ++ inst.render ++ "/" ++ container
  if !r.wellFormed then return ([], .error (.backend context KubeFault.invalidUri.render))
  match ← srv.exec r input with
  | .refused code => return ([], .error (.backend context (KubeFault.upgrade code).render))
  | .ran output status => return (output, checkStatus status)

def chunksOn (s : OutputStream) (chunks : List (OutputStream × ByteArray)) : ByteArray :=
  chunks.foldl (fun acc (t, b) => if t == s then acc ++ b else acc) ByteArray.empty

/-- Runs a command without showing its output; a failure with an exit code reports what the
command printed on standard error, when that is not blank. -/
def KubeClient.execQuiet {σ : Type} (c : KubeClient) (srv : ApiServer σ) (inst : Instance)
    (container : String) (command : List String) (input : Option ByteArray) :
    StateM σ (Except TargetError Unit) := do
  let (chunks, r) ← c.exec srv inst container command input
  let stderr := Text.trimBlank (Text.lossyText (chunksOn .stderr chunks))
  return match r with
    | .error (.exitStatus code _) => if stderr.isEmpty then r else .error (.exitStatus code stderr)
    | other => other

/-- Sends gzip-compressed archive bytes to be unpacked into a destination directory. -/
def KubeClient.streamArchive {σ : Type} (c : KubeClient) (srv : ApiServer σ) (inst : Instance)
    (container destination : String) (bytes : ByteArray) : StateM σ (Except TargetError Unit) :=
  c.execQuiet srv inst container (extractCommand destination bytes.size) (some bytes)

def KubeClient.target {σ : Type} (c : KubeClient) (srv : ApiServer σ) : Target σ where
  resolve selector := c.resolve srv selector
  deleteFiles inst container paths roots :=
    c.execQuiet srv inst container (deleteCommand paths roots) none
  receive inst container destination run :=
    c.streamArchive srv inst container destination (Deflate.gzip run.tarBytes)
  exec inst container command := do
    let (chunks, r) ← c.exec srv inst container command none
    return (chunks.map (·.2), r)

end ComponentSync
