import ComponentSync.Cluster.Api
import ComponentSync.Cluster.Resources
/-!
Making sure a component's cluster resources exist and match its settings, before a push.

The namespace is read first and created only when it is missing; when it may not be read
(status 403) it is taken to exist, and when creating it finds it already there (status 409)
that is fine too. The claim for the project files is created when missing and otherwise left
alone, since a claim cannot change. The deployment and, when the component has ports, the
service are applied server-side under the `odo` field manager, forcing ownership of their
fields, so applying unchanged settings again changes nothing.

A read that answers with reason `NotFound` means the object is missing. The report says whether
the deployment and the claim were new.
-/
/-!
What preparing a component's cluster resources did: whether the deployment or the storage had
to be made. Fresh resources start empty, so the next push must send every file.
-/
namespace ComponentSync

structure EnsureReport where
  deploymentCreated : Bool
  storageCreated : Bool
  deriving DecidableEq, Repr

/-- Whether the next push must send the whole tree. -/
def EnsureReport.needsFullPush (r : EnsureReport) : Bool :=
  r.deploymentCreated || r.storageCreated

end ComponentSync

namespace ComponentSync

def fieldManager : String := "odo"

/-- Where a kind of object lives in a namespace: its collection path. -/
def collectionPath (apiRoot ns plural : String) : String :=
  apiRoot ++ "/namespaces/" ++ ns ++ "/" ++ plural

def readOptional {σ : Type} (srv : ApiServer σ) (path context : String) :
    StateM σ (Except ClusterError (Option Value)) := do
  match ← srv.call (ApiRequest.get path []) with
  | .ok v => return .ok (some v)
  | .error (.api f) =>
    if f.reason == "NotFound" then return .ok none
    else return .error (.kube context (.api f))
  | .error f => return .error (.kube context f)

def ensureNamespace {σ : Type} (srv : ApiServer σ) (ns : String) :
    StateM σ (Except ClusterError Unit) := do
  let path := "/api/v1/namespaces/" ++ ns
  let found : Except ClusterError Bool ← match ← srv.call (ApiRequest.get path []) with
    | .ok _ => pure (.ok true)
    | .error (.api f) =>
      if f.reason == "NotFound" then pure (.ok false)
      else if f.code == 403 then pure (.ok true)
      else pure (.error (ClusterError.kube ("reading namespace " ++ ns) (.api f)))
    | .error f => pure (.error (ClusterError.kube ("reading namespace " ++ ns) f))
  match found with
  | .error e => return .error e
  | .ok true => return .ok ()
  | .ok false =>
    let create : ApiRequest :=
      ⟨"POST", "/api/v1/namespaces", [], some (namespaceObject ns), some "application/json"⟩
    match ← srv.call create with
    | .ok _ => return .ok ()
    | .error (.api f) =>
      if f.code == 409 then return .ok ()
      else return .error (.kube ("creating namespace " ++ ns) (.api f))
    | .error f => return .error (.kube ("creating namespace " ++ ns) f)

/-- Creates an object unless one of its name exists; whether it was created. -/
def createIfAbsent {σ : Type} (srv : ApiServer σ) (collection kind : String) (obj : Value) :
    StateM σ (Except ClusterError Bool) := do
  let name := obj.objectName
  match ← readOptional srv (collection ++ "/" ++ name) ("reading " ++ kind ++ " " ++ name) with
  | .error e => return .error e
  | .ok (some _) => return .ok false
  | .ok none =>
    match ← srv.call ⟨"POST", collection, [], some obj, some "application/json"⟩ with
    | .ok _ => return .ok true
    | .error f => return .error (.kube ("creating " ++ kind ++ " " ++ name) f)

/-- Applies an object server-side; whether it did not exist before. -/
def applyObject {σ : Type} (srv : ApiServer σ) (collection kind : String) (obj : Value) :
    StateM σ (Except ClusterError Bool) := do
  let name := obj.objectName
  let path := collection ++ "/" ++ name
  match ← readOptional srv path ("reading " ++ kind ++ " " ++ name) with
  | .error e => return .error e
  | .ok existing =>
    let patch : ApiRequest := ⟨"PATCH", path, [("force", "true"), ("fieldManager", fieldManager)],
      some obj, some "application/apply-patch+yaml"⟩
    match ← srv.call patch with
    | .ok _ => return .ok existing.isNone
    | .error f => return .error (.kube ("applying " ++ kind ++ " " ++ name) f)

/-- Makes sure the namespace, claim, deployment and service of a component exist and match
its settings. -/
def ensureComponent {σ : Type} (srv : ApiServer σ) (ns : String) (s : ComponentSettings) :
    StateM σ (Except ClusterError EnsureReport) := do
  match ← ensureNamespace srv ns with
  | .error e => return .error e
  | .ok () =>
  match projectFilesClaim s ns with
  | .error e => return .error e
  | .ok claim =>
  match ← createIfAbsent srv (collectionPath "/api/v1" ns "persistentvolumeclaims")
      "PersistentVolumeClaim" claim with
  | .error e => return .error e
  | .ok storageCreated =>
  match deploymentObject s ns with
  | .error e => return .error e
  | .ok deployment =>
  match ← applyObject srv (collectionPath "/apis/apps/v1" ns "deployments") "Deployment"
      deployment with
  | .error e => return .error e
  | .ok deploymentCreated =>
  match serviceObject s ns with
  | .error e => return .error e
  | .ok none => return .ok ⟨deploymentCreated, storageCreated⟩
  | .ok (some service) =>
    match ← applyObject srv (collectionPath "/api/v1" ns "services") "Service" service with
    | .error e => return .error e
    | .ok _ => return .ok ⟨deploymentCreated, storageCreated⟩

end ComponentSync
