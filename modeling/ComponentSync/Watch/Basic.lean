import ComponentSync.Sync.Push
import ComponentSync.Workspace.Change
import ComponentSync.Cli.Grammar
/-!
Watching a source tree and pushing what changes. The first push sends what changed since the
last recorded one; a failure there ends the watch. After it, a loop waits on the watcher's events
and on the end of the quiet period. An event that creates, modifies or removes paths notes those
strictly below the source root that are not ignored, and restarts the quiet period; once the
period is over with nothing new, the paths noted are taken as one batch and pushed with the
follow-up plan. A failed push is reported and counted without ending the watch. Between batches
the console says what is being watched.
-/
/-!
Changes noticed while watching, waiting for a quiet period before they are pushed. Every change
restarts the quiet period, so a burst of changes becomes one batch; a batch lists each changed
path once, in sorted order. Times are milliseconds on a common clock.
-/
namespace ComponentSync

/-- Changed paths waiting for the quiet period to end. -/
structure PendingChanges where
  delay : Nat
  paths : List String
  dueAt : Option Nat
  deriving DecidableEq, Repr

def PendingChanges.empty (delay : Nat) : PendingChanges := ⟨delay, [], none⟩

/-- Inserts a text into a sorted list without repeating it. -/
def insertSorted (s : String) : List String → List String
  | [] => [s]
  | x :: xs => if s < x then s :: x :: xs else if s == x then x :: xs else x :: insertSorted s xs

/-- Notes a changed path at time `now`; the batch is due one delay later. -/
def PendingChanges.record (p : PendingChanges) (path : String) (now : Nat) : PendingChanges :=
  { p with paths := insertSorted path p.paths, dueAt := some (now + p.delay) }

/-- Whether the quiet period has ended at time `now`. -/
def PendingChanges.isDue (p : PendingChanges) (now : Nat) : Bool :=
  match p.dueAt with
  | some due => now ≥ due
  | none => false

def PendingChanges.take (p : PendingChanges) : List String × PendingChanges :=
  (p.paths, { p with paths := [], dueAt := none })

end ComponentSync

namespace ComponentSync

/-- How often pushes made while watching succeeded and failed. -/
structure WatchSummary where
  pushes : Nat
  failures : Nat
  deriving DecidableEq, Repr

inductive WatchError
  /-- The source root cannot be resolved. -/
  | io (path : String) (err : OsError)
  | initialPush (err : SyncError)

def WatchError.message : WatchError → String
  | .io path err => "I/O error at " ++ path ++ ": " ++ err.message
  | .initialPush err => "initial push failed: " ++ err.message

def waitingLine (root : Path) : String :=
  "Waiting for something to change in " ++ root.render

/-! ### The loop -/

inductive EventKind
  | create
  | modify
  | remove
  | access
  | other
  deriving DecidableEq, Repr

/-- Whether an event says that something was created, modified or removed. -/
def EventKind.isRelevant : EventKind → Bool
  | .create | .modify | .remove => true
  | .access | .other => false

/-- An event of a file-system watcher: its kind and the paths it is about. -/
structure WatchEvent where
  kind : EventKind
  paths : List Path

/-- The keys of the paths strictly below `root` that are not ignored. -/
def relevantKeys (root : Path) (rules : RuleSet) (paths : List Path) : List String :=
  paths.filterMap fun p =>
    if root.isPrefixOf p then
      let key := "/".intercalate (p.drop root.length)
      if !key.isEmpty && !rules.isIgnored key then some key else none
    else none

/-- What the watch loop waits on: an event of the watcher, or a wake-up, each at a time. -/
inductive WatchInput
  | event (e : WatchEvent) (now : Nat)
  | wake (now : Nat)

/-- The loop's own state: the changes pending, and the pushes counted so far. -/
structure WatchState where
  pending : PendingChanges
  summary : WatchSummary

/-- What one input does to the pending changes, and the batch it takes, if any: a relevant event
notes its keys, and a wake-up once the quiet period is over takes the batch. -/
def PendingChanges.advance (p : PendingChanges) (root : Path) (rules : RuleSet) :
    WatchInput → PendingChanges × Option (List String)
  | .event e now =>
    if e.kind.isRelevant then
      ((relevantKeys root rules e.paths).foldl (fun p key => p.record key now) p, none)
    else (p, none)
  | .wake now => if p.isDue now then (p.take.2, some p.take.1) else (p, none)

/-- Pushes a batch taken and counts the outcome; a failed push is reported and the watch goes
on. -/
def pushTaken {σ : Type} (t : Target σ) (plan : PushPlan) (summary : WatchSummary)
    (batch : List String) : PushM σ WatchSummary := do
  say (·.line ("File changes detected: " ++ ", ".intercalate batch))
  let summary ← tryCatch (do let _ ← push t plan; pure { summary with pushes := summary.pushes + 1 })
    fun e => do
      say (·.line ("Push failed: " ++ e.message))
      pure { summary with failures := summary.failures + 1 }
  say (·.line (waitingLine plan.sourceRoot))
  return summary

def watchStep {σ : Type} (t : Target σ) (plan : PushPlan) (s : WatchState) (input : WatchInput) :
    PushM σ WatchState :=
  match s.pending.advance plan.sourceRoot plan.ignore input with
  | (pending, none) => pure ⟨pending, s.summary⟩
  | (pending, some batch) => do
    let summary ← pushTaken t plan s.summary batch
    pure ⟨pending, summary⟩

def watchLoop {σ : Type} (t : Target σ) (plan : PushPlan) (s : WatchState)
    (inputs : List WatchInput) : PushM σ WatchState :=
  inputs.foldlM (watchStep t plan) s

/-! ### Watching through batches of changes -/

/-- The kind of event a watcher reports for a change. -/
def Change.eventKind : Change → EventKind
  | .write .. | .touch .. => .modify
  | .symlink .. | .mkdir _ => .create
  | .remove _ => .remove

/-- Makes a change below `root` and returns the event a watcher reports for it. A change that
cannot be made leaves the tree as it was. -/
def makeChange {σ : Type} (root : Path) (c : Change) : PushM σ WatchEvent := do
  let w ← get
  set { w with files := (w.files.applyChange root c).toOption.getD w.files }
  return ⟨c.eventKind, w.files.touchedBy root c⟩

/-- One batch of changes made at time `now`, reported to the loop, and a wake-up of the loop once
the quiet period is over. -/
def watchBatch {σ : Type} (t : Target σ) (plan : PushPlan) (s : WatchState) (batch : List Change)
    (now : Nat) : PushM σ WatchState := do
  let events ← batch.mapM (makeChange plan.sourceRoot)
  watchLoop t plan s (events.map (.event · now) ++ [.wake (now + Cli.defaultDelay)])

/-- Watches the source root through the given batches of changes, one quiet period apart. -/
def watch {σ : Type} (t : Target σ) (plan : PushPlan) (batches : List (List Change)) :
    ExceptT WatchError (StateM (World σ)) WatchSummary := do
  let w ← get
  match w.files.stat plan.sourceRoot with
  | .error e => throw (.io plan.sourceRoot.render e)
  | .ok _ => pure ()
  let first ← (push t plan).run
  match first with
  | .error e => throw (.initialPush e)
  | .ok _ => pure ()
  let plan := plan.followup
  modify fun w => { w with console := w.console.line (waitingLine plan.sourceRoot) }
  let start : WatchState := ⟨PendingChanges.empty Cli.defaultDelay, ⟨0, 0⟩⟩
  let run := batches.zipIdx.foldlM
    (fun s (batch, k) => watchBatch t plan s batch (2 * Cli.defaultDelay * k)) start
  match ← run.run with
  | .ok s => return s.summary
  | .error e => throw (.initialPush e)

end ComponentSync
