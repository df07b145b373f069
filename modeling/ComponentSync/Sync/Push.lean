import ComponentSync.Sync.Transfer
import ComponentSync.Sync.Trigger
/-!
One push: scan, sync, build, reload, record. The tree is scanned against the stored index
(unless the plan lists its files), the changes are synced, and when an instance was reached the
build command runs under "Building source code" and the reload command under "Reloading the
application". Only when all of that succeeded, and the sync changed something on the target,
is the scan stored as the new index; a failed push is therefore retried in full by the next.
-/
namespace ComponentSync

structure PushReport where
  changed : List String
  deleted : List String
  outcome : SyncOutcome
  /-- The output of the build command, when one ran. -/
  buildOutput : Option String

def PushReport.isNoop (r : PushReport) : Bool :=
  r.outcome.isNoop

/-- Stores a scan as the index of a source root. -/
def commitScan {σ : Type} (s : Scan) (root : Path) : PushM σ Unit := do
  let w ← get
  let (files, result) := s.commit w.files root w.now
  set { w with files := files }
  orFail result id

def push {σ : Type} (t : Target σ) (plan : PushPlan) : PushM σ PushReport := do
  let (scanned, changed, deleted) ← match plan.files with
    | some files => pure (none, files, [])
    | none => do
      let w ← get
      let s ← orFail (scan w.files plan.sourceRoot plan.ignore w.now) id
      pure (some s, s.changed, s.deleted)
  let outcome ← syncFiles t plan.target plan.sourceRoot plan.ignore changed deleted plan.forcePush
  let buildOutput ← match outcome.instance_ with
    | none => pure none
    | some inst => do
      let out ← match plan.build with
        | none => pure none
        | some b => do
          let step := trigger t inst b.container b.argv plan.showLog
          some <$> withStatus "Building source code" step
      match plan.reload with
      | none => pure ()
      | some r => do
        let step := trigger t inst r.container r.argv false
        discard <| withStatus "Reloading the application" step
      pure out
  match scanned with
  | some s => if !outcome.isNoop then commitScan s plan.sourceRoot
  | none => pure ()
  return ⟨changed, deleted, outcome, buildOutput⟩

end ComponentSync
