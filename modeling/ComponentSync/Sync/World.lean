import ComponentSync.Sync.Plan
import ComponentSync.Progress.Console
import ComponentSync.Target.Basic
/-!
The surroundings of a push: the local files, the console it reports progress on, the state of
the target it talks to, and the current time. A push is a computation over these that may fail
with a sync error.

A status wraps a step: it is opened before the step, closed with a check mark when the step
returns, and closed with a cross when the step fails, the failure then passing on unchanged.
-/
namespace ComponentSync

structure World (σ : Type) where
  files : Workspace
  console : Console
  target : σ
  now : Time.Instant

/-- A step of a push against a target with state `σ`. -/
abbrev PushM (σ : Type) := ExceptT SyncError (StateM (World σ))

def onTarget {σ α : Type} (m : StateM σ α) : PushM σ α := do
  let w ← get
  let (a, t) := m.run w.target
  set { w with target := t }
  return a

def say {σ : Type} (f : Console → Console) : PushM σ Unit :=
  modify fun w => { w with console := f w.console }

def withStatus {σ α : Type} (msg : String) (step : PushM σ α) : PushM σ α := do
  say (·.begin msg)
  tryCatch (do let a ← step; say (·.finish msg true); return a)
    fun e => do say (·.finish msg false); throw e

/-- Fails the push with `e` when a result is an error, after mapping it. -/
def orFail {σ ε α : Type} (r : Except ε α) (f : ε → SyncError) : PushM σ α :=
  match r with
  | .ok a => pure a
  | .error e => throw (f e)

end ComponentSync
