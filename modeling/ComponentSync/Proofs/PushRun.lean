import ComponentSync.Sync.Push
/-! Running the steps of a push from a world. A step either fails or returns a value, and leaves
a new world either way. The lemmas below evaluate each building block of a push, and `push_eq`
cuts a push into its four phases: finding the changes, syncing them, running the commands, and
recording the scan. -/
namespace ComponentSync

variable {σ α β ε : Type}

@[simp] theorem Except.toOption_ok (a : α) : (Except.ok a : Except ε α).toOption = some a := rfl

@[simp] theorem Except.toOption_error (e : ε) : (Except.error e : Except ε α).toOption = none :=
  rfl

/-- The result of a push step run from a world, and the world it leaves. -/
def PushM.exec (m : PushM σ α) (w : World σ) : Except SyncError α × World σ :=
  m.run.run w

namespace PushM

@[simp] theorem exec_pure (a : α) (w : World σ) :
    PushM.exec (pure a : PushM σ α) w = (.ok a, w) := rfl

@[simp] theorem exec_bind (m : PushM σ α) (f : α → PushM σ β) (w : World σ) :
    PushM.exec (m >>= f) w =
      match PushM.exec m w with
      | (.ok a, w') => PushM.exec (f a) w'
      | (.error e, w') => (.error e, w') := by
  unfold PushM.exec
  simp only [ExceptT.run_bind, StateT.run_bind]
  rcases h : m.run.run w with ⟨r, w'⟩
  cases r <;> simp_all <;> rfl

theorem exec_bind_ok {m : PushM σ α} {f : α → PushM σ β} {w w'' : World σ} {b : β}
    (h : PushM.exec (m >>= f) w = (.ok b, w'')) :
    ∃ a w', PushM.exec m w = (.ok a, w') ∧ PushM.exec (f a) w' = (.ok b, w'') := by
  rw [exec_bind] at h
  rcases hm : PushM.exec m w with ⟨_ | a, w'⟩
  · rw [hm] at h
    cases h
  · rw [hm] at h
    exact ⟨a, w', rfl, h⟩

@[simp] theorem exec_map (f : α → β) (m : PushM σ α) (w : World σ) :
    PushM.exec (f <$> m) w =
      match PushM.exec m w with
      | (.ok a, w') => (.ok (f a), w')
      | (.error e, w') => (.error e, w') := by
  rw [map_eq_pure_bind, exec_bind]
  rcases PushM.exec m w with ⟨r, w'⟩
  cases r <;> rfl

@[simp] theorem exec_throw (e : SyncError) (w : World σ) :
    PushM.exec (throw e : PushM σ α) w = (.error e, w) := rfl

@[simp] theorem exec_get (w : World σ) :
    PushM.exec (get : PushM σ (World σ)) w = (.ok w, w) := rfl

@[simp] theorem exec_set (w w' : World σ) :
    PushM.exec (set w' : PushM σ PUnit) w = (.ok ⟨⟩, w') := rfl

@[simp] theorem exec_modify (f : World σ → World σ) (w : World σ) :
    PushM.exec (modify f : PushM σ PUnit) w = (.ok ⟨⟩, f w) := rfl

@[simp] theorem exec_tryCatch (m : PushM σ α) (h : SyncError → PushM σ α) (w : World σ) :
    PushM.exec (tryCatch m h) w =
      match PushM.exec m w with
      | (.ok a, w') => (.ok a, w')
      | (.error e, w') => PushM.exec (h e) w' := by
  show (ExceptT.tryCatch m h).run.run w = _
  simp only [ExceptT.tryCatch, ExceptT.run, ExceptT.mk, StateT.run_bind]
  rcases hm : m.run.run w with ⟨r, w'⟩
  cases r <;> simp_all [PushM.exec, ExceptT.run] <;> rfl

end PushM

@[simp] theorem exec_onTarget (m : StateM σ α) (w : World σ) :
    PushM.exec (onTarget m) w =
      (.ok (m.run w.target).1, { w with target := (m.run w.target).2 }) := rfl

@[simp] theorem exec_say (f : Console → Console) (w : World σ) :
    PushM.exec (say f : PushM σ Unit) w = (.ok (), { w with console := f w.console }) := rfl

@[simp] theorem exec_orFail_ok (a : α) (f : ε → SyncError) (w : World σ) :
    PushM.exec (orFail (.ok a) f) w = (.ok a, w) := rfl

@[simp] theorem exec_orFail_error (e : ε) (f : ε → SyncError) (w : World σ) :
    PushM.exec (orFail (.error e : Except ε α) f) w = (.error (f e), w) := rfl

@[simp] theorem exec_withStatus (msg : String) (step : PushM σ α) (w : World σ) :
    PushM.exec (withStatus msg step) w =
      match PushM.exec step { w with console := w.console.begin msg } with
      | (.ok a, w') => (.ok a, { w' with console := w'.console.finish msg true })
      | (.error e, w') => (.error e, { w' with console := w'.console.finish msg false }) := by
  simp only [withStatus, PushM.exec_bind, exec_say, PushM.exec_tryCatch]
  rcases PushM.exec step { w with console := w.console.begin msg } with ⟨r, w'⟩
  cases r <;> rfl

@[simp] theorem exec_fullTree (root : Path) (rules : RuleSet) (w : World σ) :
    PushM.exec (fullTree root rules) w =
      ((snapshot w.files root rules (FileIndex.empty w.now) w.now).map FileIndex.paths, w) := by
  simp only [fullTree, PushM.exec_bind, PushM.exec_get]
  cases snapshot w.files root rules (FileIndex.empty w.now) w.now <;> rfl

/-! ### The phases of a sync -/

def reachInstance (t : Target σ) (target : SyncTarget) : PushM σ Instance := do
  let found ← onTarget (t.resolve target.selector)
  orFail found fun e => .targetUnavailable target.selector e

/-- Removes the deleted paths below every delete root of the target; the paths removed. -/
def removeDeleted (t : Target σ) (inst : Instance) (target : SyncTarget)
    (deleted : List String) : PushM σ (List String) :=
  if deleted.isEmpty then pure [] else do
    let done ← onTarget (t.deleteFiles inst target.container deleted target.deleteRoots)
    orFail done fun e => .deletePropagation deleted e
    pure deleted

/-- Sends the changed paths that are not ignored, or every file of the tree when none changed;
the paths sent. -/
def sendChanged (t : Target σ) (inst : Instance) (target : SyncTarget) (root : Path)
    (rules : RuleSet) (changed : List String) : PushM σ (List String) :=
  (if changed.isEmpty then fullTree root rules
    else pure (changed.filter fun p => !rules.isIgnored p)) >>= fun files => do
  transfer t inst target root files
  pure files

/-- Whether a sync has nothing to do: nothing changed or was deleted, and it is not forced. -/
def syncSkipped (changed deleted : List String) (force : Bool) : Bool :=
  !force && changed.isEmpty && deleted.isEmpty

theorem syncFiles_eq (t : Target σ) (target : SyncTarget) (root : Path) (rules : RuleSet)
    (changed deleted : List String) (force : Bool) :
    syncFiles t target root rules changed deleted force =
      if syncSkipped changed deleted force then pure ⟨none, [], []⟩
      else withStatus syncMessage do
        let inst ← reachInstance t target
        let removed ← removeDeleted t inst target deleted
        if changed.isEmpty && !force then return ⟨some inst, removed, []⟩
        let files ← sendChanged t inst target root rules changed
        return ⟨some inst, removed, files⟩ := by
  unfold syncFiles syncSkipped reachInstance removeDeleted sendChanged
  cases deleted.isEmpty <;> cases changed.isEmpty <;> simp

/-! ### The phases of a push -/

/-- The paths a push works from: the listed files with nothing deleted, or what a scan of the
source root against its index finds, together with that scan. -/
def PushPlan.found (plan : PushPlan) (ws : Workspace) (now : Time.Instant) :
    Except SyncError (Option Scan × List String × List String) :=
  match plan.files with
  | some files => .ok (none, files, [])
  | none => (scan ws plan.sourceRoot plan.ignore now).map fun s => (some s, s.changed, s.deleted)

def PushPlan.changes (plan : PushPlan) : PushM σ (Option Scan × List String × List String) :=
  match plan.files with
  | some files => pure (none, files, [])
  | none => do
    let w ← get
    let s ← orFail (scan w.files plan.sourceRoot plan.ignore w.now) id
    pure (some s, s.changed, s.deleted)

@[simp] theorem exec_changes (plan : PushPlan) (w : World σ) :
    PushM.exec plan.changes w = (plan.found w.files w.now, w) := by
  unfold PushPlan.changes PushPlan.found
  cases plan.files with
  | some files => rfl
  | none =>
    simp only [PushM.exec_bind, PushM.exec_get]
    cases scan w.files plan.sourceRoot plan.ignore w.now <;> rfl

/-- The build and reload commands, run when the sync reached an instance; the build's output. -/
def runTriggers (t : Target σ) (plan : PushPlan) (outcome : SyncOutcome) :
    PushM σ (Option String) :=
  match outcome.instance_ with
  | none => pure none
  | some inst => do
    let out ← match plan.build with
      | none => pure none
      | some b => do
        let step := trigger t inst b.container b.argv plan.showLog
        some <$> withStatus "Building source code" step
    match plan.reload with
    | none => pure ()
    | some r => do
      let step := trigger t inst r.container r.argv false
      discard <| withStatus "Reloading the application" step
    pure out

/-- Everything of a push before the scan is recorded: finding the changes, syncing them and
running the commands. The scan, if one was made, comes back with the report. -/
def deliver (t : Target σ) (plan : PushPlan) : PushM σ (Option Scan × PushReport) := do
  let (scanned, changed, deleted) ← plan.changes
  let outcome ← syncFiles t plan.target plan.sourceRoot plan.ignore changed deleted plan.forcePush
  let out ← runTriggers t plan outcome
  return (scanned, ⟨changed, deleted, outcome, out⟩)

/-- Stores the scan as the new index when the sync changed something on the target. -/
def recordScan (plan : PushPlan) (scanned : Option Scan) (outcome : SyncOutcome) : PushM σ Unit :=
  match scanned with
  | some s => if !outcome.isNoop then commitScan s plan.sourceRoot else pure ()
  | none => pure ()

@[simp] theorem exec_commitScan (s : Scan) (root : Path) (w : World σ) :
    PushM.exec (commitScan s root) w =
      ((s.commit w.files root w.now).2, { w with files := (s.commit w.files root w.now).1 }) := by
  simp only [commitScan, PushM.exec_bind, PushM.exec_get, PushM.exec_set]
  cases (s.commit w.files root w.now).2 <;> rfl

theorem exec_recordScan_frame (plan : PushPlan) (scanned : Option Scan) (outcome : SyncOutcome)
    (w : World σ) :
    (PushM.exec (recordScan plan scanned outcome) w).2 =
      { w with files := (PushM.exec (recordScan plan scanned outcome) w).2.files } := by
  unfold recordScan
  cases scanned with
  | none => rfl
  | some s => cases outcome.isNoop <;> simp

theorem push_eq (t : Target σ) (plan : PushPlan) :
    push t plan = (do
      let (scanned, report) ← deliver t plan
      recordScan plan scanned report.outcome
      return report) := by
  unfold push deliver PushPlan.changes runTriggers recordScan
  rcases plan with ⟨root, rules, target, force, build, reload, showLog, files⟩
  cases files with
  | none =>
    simp only [bind_assoc, pure_bind]
    congr 1; funext w
    congr 1; funext s
    congr 1; funext outcome
    rcases outcome with ⟨inst, removed, sent⟩
    cases inst <;> cases build <;> cases reload <;> simp <;> split <;> simp_all
  | some fs =>
    simp only [bind_assoc, pure_bind]
    congr 1; funext outcome
    rcases outcome with ⟨inst, removed, sent⟩
    cases inst <;> cases build <;> cases reload <;> simp

end ComponentSync
