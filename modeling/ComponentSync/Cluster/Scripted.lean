import ComponentSync.Cluster.Api
/-!
An API server that follows a script, for exercising a client without a cluster. It keeps the
namespaces and the paths of the objects that exist, and logs every request it receives (pod
listings only when asked to).

* A request matched by a failure rule that still has uses left is answered with that rule's
  error status; for a command request the stream is refused with the rule's code instead.
* Reading an object answers it when it exists and `NotFound` otherwise. Creating one makes it
  exist under the name in its metadata, or answers `AlreadyExists` when it did already.
  Applying one makes it exist.
* The n-th listing of pods answers the n-th scripted list, the last list repeating; with no
  script, one running pod named `component-0`.
* A command runs by the first rule whose pattern occurs in the command (its words joined by
  spaces): the rule's output, then, unless the rule cuts the stream, its status, or a failure
  carrying its exit code when that is not 0, or success. With no matching rule it succeeds and
  prints nothing.
-/
namespace ComponentSync

structure FailRule where
  method : Option String
  path : Option String
  pathContains : Option String
  failure : ApiFailure
  /-- How many more requests the rule fails; unlimited when absent. -/
  usesLeft : Option Nat

def FailRule.applies (r : FailRule) (req : ApiRequest) : Bool :=
  r.usesLeft != some 0 &&
    (r.method.all (· == req.method)) && (r.path.all (· == req.path)) &&
    (r.pathContains.all fun part => (req.path.splitOn part).length > 1)

structure PodInfo where
  name : Option String
  phase : Option String
  terminating : Bool

structure ExecRule where
  /-- Text the command must contain; any command when absent. -/
  pattern : Option String
  output : List (OutputStream × ByteArray)
  exit : Int
  /-- A status sent instead of the one the exit code implies. -/
  status : Option ExecStatus
  /-- Whether the stream is cut before a status is sent. -/
  drop : Bool

/-- A request as the server received it, with the input of a command request. -/
structure LoggedRequest where
  request : ApiRequest
  input : Option ByteArray

structure ScriptedCluster where
  namespaces : List String
  objects : List String
  failRules : List FailRule
  podLists : List (List PodInfo)
  listingsDone : Nat
  logListings : Bool
  execRules : List ExecRule
  log : Array LoggedRequest

/-- The script of an empty cluster with one running pod. -/
def ScriptedCluster.empty : ScriptedCluster :=
  ⟨[], [], [], [[⟨some "component-0", some "Running", false⟩]], 0, true, [], #[]⟩

/-- The first rule that applies to a request, using it up once. -/
def ScriptedCluster.takeFailure (c : ScriptedCluster) (req : ApiRequest) :
    Option ApiFailure × ScriptedCluster :=
  match c.failRules.findIdx? (·.applies req) with
  | none => (none, c)
  | some i =>
    let rules := c.failRules.modify i fun r => { r with usesLeft := r.usesLeft.map (· - 1) }
    ((c.failRules[i]?).map (·.failure), { c with failRules := rules })

def statusFailure (code : Nat) (reason message : String) : ApiFailure :=
  ⟨"Failure", message, reason, code⟩

/-- A pod of a scripted listing as a document. -/
def PodInfo.toValue (p : PodInfo) : Value :=
  let info := (p.name.map fun n => [("name", Value.str n)]).getD [] ++
    (if p.terminating then [("deletionTimestamp", Value.str "2020-01-01T00:00:00Z")] else [])
  .map [("metadata", .map info),
    ("status", .map ((p.phase.map fun ph => [("phase", Value.str ph)]).getD []))]

def pathSegments (path : String) : List String :=
  (path.splitOn "/").filter (· != "")

/-- Whether a path names a namespace or an object that exists. -/
def ScriptedCluster.has (c : ScriptedCluster) (path : String) : Bool :=
  match pathSegments path with
  | ["api", "v1", "namespaces", ns] => c.namespaces.contains ns || c.objects.contains path
  | _ => c.objects.contains path

def isPodListing (req : ApiRequest) : Bool :=
  req.method == "GET" && (pathSegments req.path).getLast? == some "pods"

def ScriptedCluster.answer (c : ScriptedCluster) (req : ApiRequest) : ApiAnswer × ScriptedCluster :=
  let segs := pathSegments req.path
  let body := req.body.getD (.map [])
  match req.method with
  | "GET" =>
    if isPodListing req then
      let list := c.podLists[c.listingsDone]? <|> c.podLists.getLast?
      let items := (list.getD []).map PodInfo.toValue
      (.ok (.map [("apiVersion", .str "v1"), ("items", .seq items), ("kind", .str "PodList")]),
        { c with listingsDone := c.listingsDone + 1 })
    else if c.has req.path then (.ok body, c)
    else
      let kind := (segs.dropLast.getLast?).getD ""
      let name := segs.getLast?.getD ""
      (.failed (statusFailure 404 "NotFound" (kind ++ " \"" ++ name ++ "\" not found")), c)
  | "POST" =>
    let name := body.objectName
    let target := req.path ++ "/" ++ name
    let kind := segs.getLast?.getD ""
    if c.has target then
      (.failed (statusFailure 409 "AlreadyExists" (kind ++ " \"" ++ name ++ "\" already exists")), c)
    else if segs == ["api", "v1", "namespaces"] then
      (.ok body, { c with namespaces := c.namespaces ++ [name] })
    else (.ok body, { c with objects := c.objects ++ [target] })
  | _ => (.ok body, if c.has req.path then c else { c with objects := c.objects ++ [req.path] })

/-- The status of a command that exited with a nonzero code. -/
def exitFailure (command : String) (code : Int) : ExecStatus :=
  ⟨some "Failure", some ("command terminated with non-zero exit code: error executing command [" ++
    command ++ "], exit code " ++ toString code), [⟨some "ExitCode", some (toString code)⟩]⟩

def ScriptedCluster.run (c : ScriptedCluster) (req : ApiRequest) : ExecAnswer :=
  let command := " ".intercalate (req.query.filterMap fun (k, v) =>
    if k == "command" then some v else none)
  match c.execRules.find? fun r => r.pattern.all fun p => (command.splitOn p).length > 1 with
  | none => .ran [] (some ⟨some "Success", none, []⟩)
  | some r =>
    let status :=
      if r.drop then none
      else some (r.status.getD
        (if r.exit != 0 then exitFailure command r.exit else ⟨some "Success", none, []⟩))
    .ran r.output status

/-- Logs a request unless it is a pod listing and listings are not logged. -/
def ScriptedCluster.record (c : ScriptedCluster) (req : ApiRequest) (input : Option ByteArray) :
    ScriptedCluster :=
  if isPodListing req && !c.logListings then c else { c with log := c.log.push ⟨req, input⟩ }

def ScriptedCluster.server : ApiServer ScriptedCluster where
  send req := do
    let c := (← get).record req none
    let (failure, c) := c.takeFailure req
    match failure with
    | some f => set c; return .failed f
    | none =>
      let (a, c) := c.answer req
      set c
      return a
  exec req input := do
    let c := (← get).record req input
    let (failure, c) := c.takeFailure req
    set c
    match failure with
    | some f => return .refused f.code
    | none => return c.run req

end ComponentSync
