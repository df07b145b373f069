import ComponentSync.Proofs.PushRun
import ComponentSync.Proofs.ArchiveNames
import ComponentSync.Target.Recording
import ComponentSync.Proofs.CommandOutput
import ComponentSync.Proofs.IgnoreRules
/-! The calls a push makes on a recording target. A push goes through stages: each may record
a call on the target and may stop the push. The calls recorded are those of the stages up to
and including the first that stops, and the push returns only when every stage passes.

`Runs m w stages a` says this of one step; `Runs.bind` chains two steps, so each phase of a
push is specified once and the whole push is put together from the phases. -/
namespace ComponentSync

variable {α β : Type}

/-! ### The recording target's operations -/

namespace Recording

@[simp] theorem resolve_run (r : Recording) (selector : String) :
    (Recording.target.resolve selector).run r =
      (if r.neverReady then .error (.timeout selector (Time.Duration.ofSecs 0))
        else .ok Recording.instance,
        { r with calls := r.calls ++ [.resolve selector] }) := by
  cases h : r.neverReady <;> simp [Recording.target, Recording.note, h] <;> rfl

@[simp] theorem deleteFiles_run (r : Recording) (inst : Instance) (container : String)
    (paths roots : List String) :
    (Recording.target.deleteFiles inst container paths roots).run r =
      (if r.failDelete then .error (.exitStatus 1
        ("rm: cannot remove '" ++ " ".intercalate paths ++ "': Permission denied")) else .ok (),
        { r with calls := r.calls ++ [.delete container paths roots] }) := by
  cases h : r.failDelete <;> simp [Recording.target, Recording.note, h] <;> rfl

@[simp] theorem receive_run (r : Recording) (inst : Instance) (container destination : String)
    (run : ArchiveRun) :
    (Recording.target.receive inst container destination run).run r =
      if r.failArchive then (.error (.backend "exec tar" "stream closed"), r)
      else (.ok (), { r with calls := r.calls ++
        [.archive container destination (run.entries.map fun e => (e.name, e.content))] }) := by
  cases h : r.failArchive <;> simp [Recording.target, Recording.note, h] <;> rfl

@[simp] theorem exec_run (r : Recording) (inst : Instance) (container : String)
    (command : List String) :
    (Recording.target.exec inst container command).run r =
      ((r.output.map fun line => (line ++ "\n").toUTF8,
        if r.exitCode != 0 then .error (.exitStatus r.exitCode
          "command terminated with non-zero exit code") else .ok ()),
        { r with calls := r.calls ++ [.exec container command] }) := by
  cases h : r.exitCode != 0 <;> simp_all [Recording.target, Recording.note] <;> rfl

/-- What a command run on a recording target prints, as a push captures it. -/
def captured (r : Recording) : String :=
  String.join ((outputLines (r.output.map fun line => (line ++ "\n").toUTF8)).map (· ++ "\n"))

@[simp] theorem captured_calls (r : Recording) (c : List Call) :
    captured { r with calls := c } = captured r := rfl

end Recording

/-! ### Stages -/

/-- One stage of a push: the call the target records, if any, and whether the push stops there. -/
structure Stage where
  call : Option Call
  stops : Bool

namespace Stage

/-- The calls recorded along stages taken in order, up to and including the first that stops. -/
def recorded : List Stage → List Call
  | [] => []
  | s :: rest => s.call.toList ++ if s.stops then [] else recorded rest

def allPass (stages : List Stage) : Bool :=
  stages.all fun s => !s.stops

@[simp] theorem recorded_nil : recorded [] = [] := rfl

@[simp] theorem allPass_nil : allPass [] = true := rfl

@[simp] theorem allPass_cons (s : Stage) (rest : List Stage) :
    allPass (s :: rest) = (!s.stops && allPass rest) := rfl

@[simp] theorem allPass_append (s t : List Stage) :
    allPass (s ++ t) = (allPass s && allPass t) := by
  simp [allPass, List.all_append]

theorem recorded_append (s t : List Stage) :
    recorded (s ++ t) = recorded s ++ if allPass s then recorded t else [] := by
  induction s with
  | nil => simp
  | cons x rest ih =>
    cases h : x.stops <;> simp [recorded, h, ih]

theorem recorded_of_allPass {stages : List Stage} (h : allPass stages = true) :
    recorded stages = stages.flatMap fun st => st.call.toList := by
  induction stages with
  | nil => rfl
  | cons x rest ih =>
    simp only [allPass_cons, Bool.and_eq_true, Bool.not_eq_true'] at h
    simp [recorded, h.1, ih h.2]

theorem mem_recorded {stages : List Stage} (h : allPass stages = true) {st : Stage}
    (hst : st ∈ stages) {c : Call} (hc : st.call = some c) : c ∈ recorded stages := by
  rw [recorded_of_allPass h]
  exact List.mem_flatMap.mpr ⟨st, hst, by simp [hc]⟩

/-- A stage that stops the push without a call: a local failure. -/
def failed : Stage := ⟨none, true⟩

def resolve (r : Recording) (target : SyncTarget) : Stage :=
  ⟨some (.resolve target.selector), r.neverReady⟩

def delete (r : Recording) (target : SyncTarget) (paths : List String) : Stage :=
  ⟨some (.delete target.container paths target.deleteRoots), r.failDelete⟩

/-- Streaming an archive: a refused archive is not recorded, and one that ended early on a
local fault is recorded and stops the push. -/
def archive (r : Recording) (target : SyncTarget) (run : ArchiveRun) : Stage :=
  if r.failArchive then failed
  else ⟨some (.archive target.container target.destination
    (run.entries.map fun e => (e.name, e.content))), run.failure.isSome⟩

def exec (r : Recording) (container : String) (argv : List String) : Stage :=
  ⟨some (.exec container argv), r.exitCode != 0⟩

/-! A stage reads the target's script, never the calls it has recorded. -/

variable (r : Recording) (c : List Call) (target : SyncTarget)

@[simp] theorem resolve_calls : resolve { r with calls := c } target = resolve r target := rfl

@[simp] theorem delete_calls (paths : List String) :
    delete { r with calls := c } target paths = delete r target paths := rfl

@[simp] theorem archive_calls (run : ArchiveRun) :
    archive { r with calls := c } target run = archive r target run := rfl

@[simp] theorem exec_calls (container : String) (argv : List String) :
    exec { r with calls := c } container argv = exec r container argv := rfl

end Stage

/-! ### Steps through stages -/

/-- `w'` has the files and the clock of `w`, and its target has recorded `calls` more; only
the console may differ besides. -/
structure Records (w w' : World Recording) (calls : List Call) : Prop where
  files : w'.files = w.files
  now : w'.now = w.now
  target : w'.target = { w.target with calls := w.target.calls ++ calls }

namespace Records

variable {w w₁ w₂ : World Recording} {c c₁ c₂ : List Call}

@[simp] theorem iff : Records w w₁ c ↔
    w₁.files = w.files ∧ w₁.now = w.now ∧
      w₁.target = { w.target with calls := w.target.calls ++ c } :=
  ⟨fun h => ⟨h.files, h.now, h.target⟩, fun ⟨h₁, h₂, h₃⟩ => ⟨h₁, h₂, h₃⟩⟩

theorem refl (w : World Recording) : Records w w [] :=
  ⟨rfl, rfl, by simp⟩

theorem trans (h₁ : Records w w₁ c₁) (h₂ : Records w₁ w₂ c₂) : Records w w₂ (c₁ ++ c₂) where
  files := h₂.files.trans h₁.files
  now := h₂.now.trans h₁.now
  target := by rw [h₂.target, h₁.target, List.append_assoc]

theorem console (h : Records w w₁ c) (f : Console → Console) :
    Records w { w₁ with console := f w₁.console } c :=
  ⟨h.files, h.now, h.target⟩

end Records

/-- A step run from `w` records the calls of `stages` and leaves the files and the clock
alone; it returns `a` when every stage passes, and fails otherwise. -/
def Runs (m : PushM Recording α) (w : World Recording) (stages : List Stage) (a : α) : Prop :=
  Records w (PushM.exec m w).2 (Stage.recorded stages) ∧
    (PushM.exec m w).1.toOption = if Stage.allPass stages then some a else none

namespace Runs

variable {m : PushM Recording α} {w : World Recording} {s t : List Stage} {a : α}

theorem pure (a : α) (w : World Recording) : Runs (pure a : PushM Recording α) w [] a :=
  ⟨by simp, rfl⟩

theorem bind {f : α → PushM Recording β} {b : β} (hm : Runs m w s a)
    (hf : ∀ w', Records w w' (Stage.recorded s) → Runs (f a) w' t b) :
    Runs (m >>= f) w (s ++ t) b := by
  obtain ⟨hrec, hres⟩ := hm
  rcases hexec : PushM.exec m w with ⟨r, w₁⟩
  rw [hexec] at hrec hres
  cases hpass : Stage.allPass s
  · -- the first step stops the push: nothing of the second is run
    rw [hpass] at hres
    cases r with
    | ok => simp at hres
    | error e =>
      refine ⟨?_, by simp [PushM.exec_bind, hexec, hpass]⟩
      simpa [PushM.exec_bind, hexec, Stage.recorded_append, hpass] using hrec
  · rw [hpass] at hres
    cases r with
    | error => simp at hres
    | ok a' =>
      obtain rfl : a' = a := by simpa using hres
      obtain ⟨hrec₂, hres₂⟩ := hf w₁ hrec
      refine ⟨?_, by simpa [PushM.exec_bind, hexec, hpass] using hres₂⟩
      simpa [PushM.exec_bind, hexec, Stage.recorded_append, hpass] using hrec.trans hrec₂

theorem withStatus (msg : String)
    (h : Runs m { w with console := w.console.begin msg } s a) :
    Runs (ComponentSync.withStatus msg m) w s a := by
  obtain ⟨hrec, hres⟩ := h
  have hbegin : Records w { w with console := w.console.begin msg } [] := ⟨rfl, rfl, by simp⟩
  simp only [Runs, exec_withStatus]
  rcases hexec : PushM.exec m { w with console := w.console.begin msg } with ⟨r, w₁⟩
  rw [hexec] at hrec hres
  cases r with
  | ok => exact ⟨by simpa using (hbegin.trans hrec).console (·.finish msg true), hres⟩
  | error => exact ⟨by simpa using (hbegin.trans hrec).console (·.finish msg false), hres⟩

theorem bind_of_exec {m : PushM Recording α} {f : α → PushM Recording β} {b : β}
    (hm : PushM.exec m w = (.ok a, w)) (h : Runs (f a) w s b) : Runs (m >>= f) w s b := by
  simpa [Runs, PushM.exec_bind, hm] using h

theorem bind_of_exec_error {m : PushM Recording α} {f : α → PushM Recording β} {b : β}
    {e : SyncError} (hm : PushM.exec m w = (.error e, w)) :
    Runs (m >>= f) w [Stage.failed] b := by
  simp [Runs, PushM.exec_bind, hm, Stage.failed, Stage.recorded]

theorem map (f : α → β) (h : Runs m w s a) : Runs (f <$> m) w s (f a) := by
  obtain ⟨hrec, hres⟩ := h
  simp only [Runs, PushM.exec_map]
  rcases hexec : PushM.exec m w with ⟨r, w₁⟩
  rw [hexec] at hrec hres
  cases r with
  | ok a' => exact ⟨hrec, by split <;> simp_all⟩
  | error => exact ⟨hrec, by simpa using hres⟩

end Runs

/-! ### The phases of a sync -/

variable (target : SyncTarget) (root : Path) (rules : RuleSet) (inst : Instance)

theorem runs_reachInstance (w : World Recording) :
    Runs (reachInstance Recording.target target) w [Stage.resolve w.target target]
      Recording.instance := by
  rcases w with ⟨ws, console, ⟨ready, refuseDelete, dropArchive, code, output, calls⟩, now⟩
  cases ready <;> simp [Runs, reachInstance, Stage.resolve, Stage.recorded]

theorem runs_removeDeleted (deleted : List String) (w : World Recording) :
    Runs (removeDeleted Recording.target inst target deleted) w
      (if deleted.isEmpty then [] else [Stage.delete w.target target deleted]) deleted := by
  rcases w with ⟨ws, console, ⟨ready, refuseDelete, dropArchive, code, output, calls⟩, now⟩
  cases deleted with
  | nil => exact Runs.pure [] _
  | cons p rest =>
    cases refuseDelete <;> simp [Runs, removeDeleted, Stage.delete, Stage.recorded]

theorem runs_transfer (files : List String) (w : World Recording) :
    Runs (transfer Recording.target inst target root files) w
      [Stage.archive w.target target (ArchiveRun.build w.files root files)] () := by
  rcases w with ⟨ws, console, ⟨ready, refuseDelete, dropArchive, code, output, calls⟩, now⟩
  cases dropArchive
  · cases hf : (ArchiveRun.build ws root files).failure <;>
      simp [Runs, transfer, Stage.archive, Stage.recorded, hf]
  · simp [Runs, transfer, Stage.archive, Stage.failed, Stage.recorded]

/-- The paths a sync sends: the changed paths that are not ignored, or, when none changed, every
file of a fresh snapshot of the tree. -/
def sentPaths (ws : Workspace) (now : Time.Instant) (changed : List String) :
    Except SyncError (List String) :=
  if changed.isEmpty then (snapshot ws root rules (FileIndex.empty now) now).map FileIndex.paths
  else .ok (changed.filter fun p => !rules.isIgnored p)

/-- Sending files: a snapshot that cannot be taken stops the push before any archive. -/
def Stage.send (r : Recording) (ws : Workspace) (sent : Except SyncError (List String)) : Stage :=
  match sent with
  | .ok files => Stage.archive r target (ArchiveRun.build ws root files)
  | .error _ => Stage.failed

@[simp] theorem Stage.send_calls (r : Recording) (c : List Call) (ws : Workspace)
    (sent : Except SyncError (List String)) :
    Stage.send target root { r with calls := c } ws sent = Stage.send target root r ws sent := by
  cases sent <;> rfl

theorem runs_sendChanged (changed : List String) (w : World Recording) :
    Runs (sendChanged Recording.target inst target root rules changed) w
      [Stage.send target root w.target w.files (sentPaths root rules w.files w.now changed)]
      ((sentPaths root rules w.files w.now changed).toOption.getD []) := by
  have hpick : PushM.exec (if changed.isEmpty then fullTree root rules
      else pure (changed.filter fun p => !rules.isIgnored p)) w =
        (sentPaths root rules w.files w.now changed, w) := by
    unfold sentPaths
    split <;> simp
  unfold sendChanged
  rcases hs : sentPaths root rules w.files w.now changed with e | files <;> rw [hs] at hpick
  · -- no snapshot could be taken: nothing is sent
    exact Runs.bind_of_exec_error hpick
  · simpa [Stage.send] using Runs.bind_of_exec hpick
      ((runs_transfer target root inst files w).bind fun w' _ => Runs.pure files w')

/-- The stages of a sync that has something to do: waiting for an instance, removing the
deleted paths when there are any, and sending files when some changed or the sync is forced. -/
def syncStages (r : Recording) (ws : Workspace) (now : Time.Instant)
    (changed deleted : List String) (force : Bool) : List Stage :=
  Stage.resolve r target ::
    ((if deleted.isEmpty then [] else [Stage.delete r target deleted]) ++
      (if changed.isEmpty && !force then []
        else [Stage.send target root r ws (sentPaths root rules ws now changed)]))

def syncReport (ws : Workspace) (now : Time.Instant) (changed deleted : List String)
    (force : Bool) : SyncOutcome :=
  if syncSkipped changed deleted force then ⟨none, [], []⟩
  else ⟨some Recording.instance, deleted,
    if changed.isEmpty && !force then [] else (sentPaths root rules ws now changed).toOption.getD []⟩

theorem runs_syncFiles (changed deleted : List String) (force : Bool) (w : World Recording) :
    Runs (syncFiles Recording.target target root rules changed deleted force) w
      (if syncSkipped changed deleted force then []
        else syncStages target root rules w.target w.files w.now changed deleted force)
      (syncReport root rules w.files w.now changed deleted force) := by
  rw [syncFiles_eq]
  by_cases hskip : syncSkipped changed deleted force
  · simpa [hskip, syncReport] using Runs.pure (⟨none, [], []⟩ : SyncOutcome) w
  · simp only [hskip, if_false, syncReport, Bool.false_eq_true]
    apply Runs.withStatus
    refine (runs_reachInstance target _).bind fun w₁ h₁ => ?_
    have hdel := runs_removeDeleted target Recording.instance deleted w₁
    simp only [h₁.target] at hdel
    refine hdel.bind fun w₂ h₂ => ?_
    split
    · exact Runs.pure _ w₂
    · have hsend := runs_sendChanged target root rules Recording.instance changed w₂
      simp only [h₂.target, h₂.files, h₂.now, h₁.target, h₁.files, h₁.now, Stage.send_calls]
        at hsend
      simpa only [List.append_nil] using
        hsend.bind (f := fun files => pure (SyncOutcome.mk (some Recording.instance) deleted files))
          fun w₃ _ => Runs.pure _ w₃

/-! ### Commands and the whole push -/

theorem runs_trigger (container : String) (argv : List String) (shown : Bool)
    (w : World Recording) :
    Runs (trigger Recording.target inst container argv shown) w
      [Stage.exec w.target container argv] w.target.captured := by
  rcases w with ⟨ws, console, ⟨ready, refuseDelete, dropArchive, code, output, calls⟩, now⟩
  cases hcode : code != 0 <;> cases shown <;>
    simp_all [Runs, trigger, Stage.exec, Stage.recorded, Recording.captured, scanLines_eq_outputLines]

/-- The build and reload commands a plan runs, in that order. -/
def Stage.commands (r : Recording) (plan : PushPlan) : List Stage :=
  (plan.build.map fun b => Stage.exec r b.container b.argv).toList ++
    (plan.reload.map fun c => Stage.exec r c.container c.argv).toList

theorem runs_runTriggers (plan : PushPlan) (outcome : SyncOutcome) (w : World Recording) :
    Runs (runTriggers Recording.target plan outcome) w
      (if outcome.instance_.isSome then Stage.commands w.target plan else [])
      (if outcome.instance_.isSome then plan.build.map fun _ => w.target.captured else none) := by
  unfold runTriggers
  rcases outcome with ⟨_ | inst, removed, sent⟩
  · exact Runs.pure none w
  · rcases plan with ⟨root, rules, target, force, build, reload, showLog, files⟩
    simp only [Option.isSome_some, if_true]
    -- the build's output is the value; the reload's output is dropped
    have hreload : ∀ (c : TriggerCommand) (out : Option String) (w' : World Recording) calls,
        Records w w' calls → Runs (do
          discard (withStatus "Reloading the application"
            (trigger Recording.target inst c.container c.argv false))
          pure out) w' [Stage.exec w.target c.container c.argv] out := by
      intro c out w' calls h'
      have h := Runs.withStatus _ (runs_trigger inst c.container c.argv false
        { w' with console := w'.console.begin "Reloading the application" })
      simp only [h'.target, Stage.exec_calls] at h
      exact (Runs.map (fun _ => PUnit.unit) h).bind fun w'' _ => Runs.pure out w''
    cases build with
    | none =>
      cases reload with
      | none => exact (Runs.pure none w).bind fun w' _ => Runs.pure none w'
      | some c => exact (Runs.pure none w).bind fun w' h' => hreload c none w' _ h'
    | some b =>
      have hbuild := Runs.map some (Runs.withStatus "Building source code"
        (runs_trigger inst b.container b.argv showLog
          { w with console := w.console.begin "Building source code" }))
      cases reload with
      | none => exact hbuild.bind fun w' _ => Runs.pure _ w'
      | some c =>
        exact hbuild.bind (f := fun out => do
          discard (withStatus "Reloading the application"
            (trigger Recording.target inst c.container c.argv false))
          pure out) fun w' h' => hreload c _ w' _ h'

@[simp] theorem Stage.commands_calls (r : Recording) (c : List Call) (plan : PushPlan) :
    Stage.commands { r with calls := c } plan = Stage.commands r plan := rfl

theorem syncReport_instance_isSome (ws : Workspace) (now : Time.Instant)
    (changed deleted : List String) (force : Bool) :
    (syncReport root rules ws now changed deleted force).instance_.isSome =
      !syncSkipped changed deleted force := by
  unfold syncReport
  cases syncSkipped changed deleted force <;> rfl

/-- The stages of a push against a recording target: a failure when its paths cannot be found,
none when there is nothing to sync, and otherwise the sync's stages and then the commands. -/
def pushStages (w : World Recording) (plan : PushPlan) : List Stage :=
  match plan.found w.files w.now with
  | .error _ => [Stage.failed]
  | .ok (_, changed, deleted) =>
    if syncSkipped changed deleted plan.forcePush then []
    else syncStages plan.target plan.sourceRoot plan.ignore w.target w.files w.now changed deleted
        plan.forcePush ++ Stage.commands w.target plan

/-- What a push delivers when every stage passes: its scan and its report. -/
def deliverReport (w : World Recording) (plan : PushPlan) : Option Scan × PushReport :=
  match plan.found w.files w.now with
  | .error _ => (none, ⟨[], [], ⟨none, [], []⟩, none⟩)
  | .ok (scanned, changed, deleted) =>
    let outcome := syncReport plan.sourceRoot plan.ignore w.files w.now changed deleted
      plan.forcePush
    (scanned, ⟨changed, deleted, outcome,
      if outcome.instance_.isSome then plan.build.map fun _ => w.target.captured else none⟩)

theorem runs_deliver (plan : PushPlan) (w : World Recording) :
    Runs (deliver Recording.target plan) w (pushStages w plan) (deliverReport w plan) := by
  unfold deliver pushStages deliverReport
  rcases hf : plan.found w.files w.now with e | ⟨scanned, changed, deleted⟩
  · have hc : PushM.exec (plan.changes : PushM Recording _) w = (.error e, w) := by simp [hf]
    exact Runs.bind_of_exec_error hc
  · have hc : PushM.exec (plan.changes : PushM Recording _) w =
        (.ok (scanned, changed, deleted), w) := by simp [hf]
    refine Runs.bind_of_exec hc ?_
    have hsync := (runs_syncFiles plan.target plan.sourceRoot plan.ignore changed deleted
      plan.forcePush w).bind (f := fun outcome => do
        let out ← runTriggers Recording.target plan outcome
        return (scanned, PushReport.mk changed deleted outcome out)) fun w₁ h₁ => by
        have ht := runs_runTriggers plan
          (syncReport plan.sourceRoot plan.ignore w.files w.now changed deleted plan.forcePush) w₁
        simp only [h₁.target, Stage.commands_calls, Recording.captured_calls] at ht
        exact ht.bind fun w₂ _ => Runs.pure _ w₂
    -- the commands run exactly when the sync was not skipped
    have hstages : ((if syncSkipped changed deleted plan.forcePush then []
        else syncStages plan.target plan.sourceRoot plan.ignore w.target w.files w.now changed
          deleted plan.forcePush) ++
        ((if (syncReport plan.sourceRoot plan.ignore w.files w.now changed deleted
          plan.forcePush).instance_.isSome then Stage.commands w.target plan else []) ++ [])) =
        if syncSkipped changed deleted plan.forcePush then []
        else syncStages plan.target plan.sourceRoot plan.ignore w.target w.files w.now changed
          deleted plan.forcePush ++ Stage.commands w.target plan := by
      rw [syncReport_instance_isSome]
      cases syncSkipped changed deleted plan.forcePush <;> simp
    rw [hstages] at hsync
    exact hsync

/-- The calls a push makes on a recording target: those of its stages, up to and including
the first that stops. Recording the scan makes no call. -/
theorem push_calls (plan : PushPlan) (w : World Recording) :
    (PushM.exec (push Recording.target plan) w).2.target =
      { w.target with calls := w.target.calls ++ Stage.recorded (pushStages w plan) } := by
  obtain ⟨hrec, -⟩ := runs_deliver plan w
  rw [push_eq, PushM.exec_bind]
  rcases hexec : PushM.exec (deliver Recording.target plan) w with ⟨r, w₁⟩
  rw [hexec] at hrec
  cases r with
  | error => exact hrec.target
  | ok x =>
    obtain ⟨scanned, report⟩ := x
    have htarget : (PushM.exec (recordScan plan scanned report.outcome) w₁).2.target =
        w₁.target := by
      rw [exec_recordScan_frame]
    simp only [PushM.exec_bind]
    rcases hr : PushM.exec (recordScan plan scanned report.outcome) w₁ with ⟨r₂, w₂⟩
    rw [hr] at htarget
    have h₂ : w₂.target = w₁.target := htarget
    cases r₂ with
    | ok => exact h₂.trans hrec.target
    | error => exact h₂.trans hrec.target

/-! ### Delete roots and archive names -/

theorem foldl_deleteRoots (acc roots : List String) :
    roots.foldl (fun acc r => if acc.contains r then acc else acc ++ [r]) acc =
      acc ++ (roots.removeAll acc).eraseDups := by
  induction roots generalizing acc with
  | nil => simp
  | cons r roots ih =>
    rw [List.foldl_cons, List.cons_removeAll]
    by_cases hr : acc.contains r = true
    · rw [if_pos hr, ih, if_neg (by rw [hr]; decide)]
    · -- a later root is compared against one more root, `r`
      have hgrow : roots.removeAll (acc ++ [r]) =
          (roots.removeAll acc).filter fun b => !b == r := by
        unfold List.removeAll
        rw [List.filter_filter]
        congr 1
        funext x
        by_cases hx : x = r <;> simp [hx]
      rw [if_neg hr, ih, if_pos (by simpa using hr), List.eraseDups_cons, hgrow,
        List.append_assoc, List.singleton_append]

/-- The delete roots are the destination and then the mirror roots, each first occurrence
kept and every later one dropped. -/
theorem deleteRoots_eq_eraseDups (t : SyncTarget) :
    t.deleteRoots = (t.destination :: t.mirrorRoots).eraseDups := by
  unfold SyncTarget.deleteRoots
  rw [foldl_deleteRoots, List.eraseDups_cons, List.singleton_append]
  congr 2
  unfold List.removeAll
  congr 1
  funext x
  by_cases hx : x = t.destination <;> simp [hx]

theorem sentPaths_snapshotKeys {plan : PushPlan} {ws : Workspace} {now : Time.Instant}
    (hw : ws.WellNamed) (hplan : plan.files = none) {scanned : Option Scan}
    {changed deleted files : List String}
    (hfound : plan.found ws now = .ok (scanned, changed, deleted))
    (hsent : sentPaths plan.sourceRoot plan.ignore ws now changed = .ok files) :
    ∀ p ∈ files, SnapshotKey ws plan.sourceRoot plan.ignore p := by
  unfold PushPlan.found at hfound
  rw [hplan] at hfound
  rcases hscan : scan ws plan.sourceRoot plan.ignore now with e | s <;>
    rw [hscan] at hfound
  · cases hfound
  · cases hfound
    obtain ⟨hsound, hsub⟩ := scan_keysSound hw hscan
    unfold sentPaths at hsent
    split at hsent
    · -- nothing changed: a fresh snapshot is sent
      rcases hsnap : snapshot ws plan.sourceRoot plan.ignore (FileIndex.empty now) now with
        e | snap <;> rw [hsnap] at hsent
      · cases hsent
      · cases hsent
        exact (snapshot_keysSound hw hsnap).1
    · cases hsent
      intro p hp
      exact hsound.1 p (hsub.subset (List.mem_filter.mp hp).1)

theorem sentPaths_nil_sorted {ws : Workspace} {root : Path} {rules : RuleSet}
    {now : Time.Instant} {files : List String} (hw : ws.WellNamed)
    (hsent : sentPaths root rules ws now [] = .ok files) : files.Pairwise (· < ·) := by
  unfold sentPaths at hsent
  rcases hsnap : snapshot ws root rules (FileIndex.empty now) now with e | snap <;>
    simp only [List.isEmpty_nil, if_true, hsnap] at hsent
  · cases hsent
  · cases hsent
    exact (snapshot_keysSound hw hsnap).2

/-- The calls a push makes on a recording target follow its stages: waiting for an instance,
removing deleted paths below the delete roots, sending an archive, and running the build and
reload commands, cut after the first that fails. The delete roots are the destination and then
the mirror roots, without repeats. A plan that scans a well-named tree sends paths that are not
ignored, in increasing order when it sends the whole tree, and names the entries of its archive
by those paths, cut at the first fault. -/
theorem push_call_protocol (plan : PushPlan) (w : World Recording) (hw : w.files.WellNamed) :
    (PushM.exec (push Recording.target plan) w).2.target.calls =
        w.target.calls ++ Stage.recorded (pushStages w plan) ∧
      plan.target.deleteRoots = (plan.target.destination :: plan.target.mirrorRoots).eraseDups ∧
      ∀ scanned changed deleted files, plan.files = none →
        plan.found w.files w.now = .ok (scanned, changed, deleted) →
        sentPaths plan.sourceRoot plan.ignore w.files w.now changed = .ok files →
        (∀ p ∈ files, plan.ignore.isIgnored p = false) ∧
        (changed = [] → files.Pairwise (· < ·)) ∧
        (ArchiveRun.build w.files plan.sourceRoot files).entries.map (·.name) <+: files ∧
        ((ArchiveRun.build w.files plan.sourceRoot files).failure = none →
          (ArchiveRun.build w.files plan.sourceRoot files).entries.map (·.name) = files) := by
  refine ⟨by rw [push_calls], deleteRoots_eq_eraseDups plan.target, ?_⟩
  intro scanned changed deleted files hplan hfound hsent
  have hkeys := sentPaths_snapshotKeys hw hplan hfound hsent
  refine ⟨fun p hp => ?_, ?_, build_names_snapshotKeys files hkeys⟩
  · obtain ⟨-, -, -, -, -, hkeep⟩ := hkeys p hp
    exact hkeep
  · rintro rfl
    exact sentPaths_nil_sorted hw hsent

/-- The protocol at a one-file tree pushed to a target with a repeated mirror root. -/
theorem push_call_protocol_one_file :
    let w : World Recording :=
      ⟨⟨[(["a.txt"], .file ByteArray.empty ⟨0, 0⟩)], .ext4⟩, Console.empty, Recording.fresh, ⟨0, 0⟩⟩
    let plan : PushPlan := ⟨[], ⟨[]⟩, ⟨"app=api", "build", "/projects/api",
      ["/mirror", "/projects/api", "/mirror"]⟩, false, none, none, false, none⟩
    w.files.WellNamed ∧
      ((PushM.exec (push Recording.target plan) w).2.target.calls =
          w.target.calls ++ Stage.recorded (pushStages w plan) ∧
        plan.target.deleteRoots =
          (plan.target.destination :: plan.target.mirrorRoots).eraseDups ∧
        ∀ scanned changed deleted files, plan.files = none →
          plan.found w.files w.now = .ok (scanned, changed, deleted) →
          sentPaths plan.sourceRoot plan.ignore w.files w.now changed = .ok files →
          (∀ p ∈ files, plan.ignore.isIgnored p = false) ∧
          (changed = [] → files.Pairwise (· < ·)) ∧
          (ArchiveRun.build w.files plan.sourceRoot files).entries.map (·.name) <+: files ∧
          ((ArchiveRun.build w.files plan.sourceRoot files).failure = none →
            (ArchiveRun.build w.files plan.sourceRoot files).entries.map (·.name) = files)) := by
  intro w plan
  exact ⟨by decide, push_call_protocol plan w (by decide)⟩

set_option maxRecDepth 20000 in
/-- The ignore filter of an explicit list reads each path as listed, and the archive names it by
its normal form: under a rule `build/out.txt`, the listed `build//out.txt` is not ignored and is
sent, and the archive holds it as `build/out.txt`, a path the rule ignores. -/
theorem listed_path_archived_though_ignored :
    let ws : Workspace :=
      ⟨[(["build"], .dir), (["build", "out.txt"], .file "o".toUTF8 ⟨0, 0⟩)], .ext4⟩
    ∃ r, IgnoreRule.parse "build/out.txt" = .ok r ∧
      sentPaths [] ⟨RuleSet.builtin.rules ++ [r]⟩ ws ⟨0, 0⟩ ["build//out.txt"] =
        .ok ["build//out.txt"] ∧
      (ArchiveRun.build ws [] ["build//out.txt"]).entries.map (·.name) = ["build/out.txt"] ∧
      (⟨RuleSet.builtin.rules ++ [r]⟩ : RuleSet).isIgnored "build/out.txt" = true := by
  intro ws
  have hkey : (IgnoreRule.parse "build/out.txt").toOption.map
      (fun r => (r.raw, r.pattern, r.anchored)) =
      some ("build/out.txt", ⟨"build/out.txt".toList.map .literal⟩, true) := by
    decide +kernel
  have hparse : IgnoreRule.parse "build/out.txt" =
      .ok ⟨"build/out.txt", ⟨"build/out.txt".toList.map .literal⟩, true⟩ := by
    rcases hp : IgnoreRule.parse "build/out.txt" with e | ⟨raw, p, a⟩ <;>
      simp_all [Except.toOption]
  have hodo : IgnoreRule.parse ".odo" = .ok toolDirRule := parse_toolDir
  have hbuiltin : RuleSet.builtin.rules = [gitDirRule, toolDirRule] := by
    simp [RuleSet.builtin, builtinIgnores, parse_gitDir, hodo, Except.toOption]
  refine ⟨_, hparse, ?_, ?_, ?_⟩
  · -- the listed text has an empty component, so no prefix of it is the rule's path
    have hparts : pathComponents "build//out.txt" = ["build", "", "out.txt"] := by decide
    simp [sentPaths, RuleSet.isIgnored, hparts, hbuiltin, gitDirRule, toolDirRule,
      IgnoreRule.hits, Glob.Pattern.matches, Glob.matchTokens, Glob.Token.isRun,
      Glob.Token.accepts, List.range_succ]
  · -- the archive names the file by the normal form of the listed text
    have hsplit : PathPiece.split "build//out.txt" = [.named "build", .named "out.txt"] := by
      have hpieces : Path.pieces "build//out.txt" = ["build", "", "out.txt"] := by decide
      unfold PathPiece.split
      simp [hpieces]
    have hends : "build//out.txt".endsWith "/" = false := by
      simp only [← String.endsWith_toSlice, String.Slice.endsWith_string_eq_false_iff,
        String.copy_toSlice]
      decide
    have hjoin : joinPieces [PathPiece.named "build", .named "out.txt"] = "build/out.txt" := by
      simp [joinPieces]
    have hsize : "build/out.txt".utf8ByteSize ≤ headerFieldSize := by decide
    have hname : entryName "build//out.txt" = .ok "build/out.txt" := by
      unfold entryName normalName
      simp [hsplit, hends, keptPieces, bind, Except.bind, pure, Except.pure, hjoin, hsize]
    have hfound : ws.lstat (Path.join [] "build//out.txt") = .ok (.file "o".toUTF8 ⟨0, 0⟩) := by
      rfl
    simp [ArchiveRun.build, archiveEntry, hfound, hname]
  · have hparts : pathComponents "build/out.txt" = ["build", "out.txt"] := by decide
    simp [RuleSet.isIgnored, hparts, IgnoreRule.hits, Glob.Pattern.matches, Glob.matchTokens,
      Glob.Token.isRun, Glob.Token.accepts, List.range_succ]

end ComponentSync
