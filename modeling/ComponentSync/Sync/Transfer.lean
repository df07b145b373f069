import ComponentSync.Sync.World
import ComponentSync.Sync.Scan
/-!
Bringing the target in line with local changes. Nothing happens when nothing changed or was
deleted and the push is not forced. Otherwise, under the status "Syncing files to the
component": a running instance is found; deleted files are removed below every delete root;
and the changed files that are not ignored are sent as one archive, or, for a forced push with
no changes, every file of the tree.

When the target fails to take the archive, its error is reported; when it took the archive but
the archive ended early on a local failure, that failure is reported.
-/
namespace ComponentSync

def syncMessage : String := "Syncing files to the component"

/-- What syncing did: the instance reached, the paths deleted there and the paths sent. -/
structure SyncOutcome where
  instance_ : Option Instance
  deleted : List String
  transferred : List String

def SyncOutcome.isNoop (o : SyncOutcome) : Bool :=
  o.deleted.isEmpty && o.transferred.isEmpty

/-- Every file of the tree that is not ignored, fingerprinted afresh. -/
def fullTree {σ : Type} (root : Path) (rules : RuleSet) : PushM σ (List String) := do
  let w ← get
  let snap ← orFail (snapshot w.files root rules (FileIndex.empty w.now) w.now) id
  return snap.paths

/-- Sends files as one archive into the target's destination. -/
def transfer {σ : Type} (t : Target σ) (inst : Instance) (target : SyncTarget) (root : Path)
    (files : List String) : PushM σ Unit := do
  let run := ArchiveRun.build (← get).files root files
  let taken ← onTarget (t.receive inst target.container target.destination run)
  orFail taken fun e => .transfer target.destination (.target e)
  match run.failure with
  | some fault => throw (.transfer target.destination (.local_ fault.message))
  | none => pure ()

def syncFiles {σ : Type} (t : Target σ) (target : SyncTarget) (root : Path) (rules : RuleSet)
    (changed deleted : List String) (force : Bool) : PushM σ SyncOutcome := do
  if !force && changed.isEmpty && deleted.isEmpty then return ⟨none, [], []⟩
  withStatus syncMessage do
    let found ← onTarget (t.resolve target.selector)
    let inst ← orFail found fun e => .targetUnavailable target.selector e
    let removed ← if deleted.isEmpty then pure [] else do
      let done ← onTarget (t.deleteFiles inst target.container deleted target.deleteRoots)
      orFail done fun e => .deletePropagation deleted e
      pure deleted
    if changed.isEmpty && !force then return ⟨some inst, removed, []⟩
    let files ← if changed.isEmpty then fullTree root rules
      else pure (changed.filter fun p => !rules.isIgnored p)
    transfer t inst target root files
    return ⟨some inst, removed, files⟩

end ComponentSync
