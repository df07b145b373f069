import ComponentSync.Proofs.CallProtocol
import ComponentSync.Proofs.Lookup
/-!
What a push shows on the console. Each status of a push is opened by its pending line and closed
by exactly one completion line: a check mark when its step returned, a cross when it failed. The
statuses follow the plan (the sync, then the build and the reload when planned), none starts
after one has failed, and only a build whose output is shown prints lines between its two. A push
that has nothing to sync, or whose scan fails, prints nothing.

Steps are described by two judgements that compose along `>>=`: `PushM.PrintsLines` for a step
that prints plain lines at most, and `StatusesShown` for a step that shows statuses.
-/
namespace ComponentSync

variable {σ α β : Type}

@[simp] theorem Except.isOk_ok {ε : Type} (a : α) : (Except.ok a : Except ε α).isOk = true := rfl

@[simp] theorem Except.isOk_error {ε : Type} (e : ε) : (Except.error e : Except ε α).isOk = false :=
  rfl

def linesText (ls : List String) : String :=
  String.join (ls.map (· ++ "\n"))

@[simp] theorem linesText_nil : linesText [] = "" := rfl

@[simp] theorem linesText_append (ls ms : List String) :
    linesText (ls ++ ms) = linesText ls ++ linesText ms := by
  simp [linesText, String.join_append]

theorem Console.foldl_line_text (ls : List String) (c : Console) :
    (ls.foldl Console.line c).text = c.text ++ linesText ls := by
  induction ls generalizing c with
  | nil => simp
  | cons l ls ih => simp [ih, linesText, String.append_assoc]

/-! ### Statuses and their transcript -/

/-- A status as the console shows it: its message, the lines its step printed, and whether the
step returned. -/
structure StatusRun where
  msg : String
  shown : List String
  ok : Bool

/-- The pending line, the step's own lines, and one completion line. -/
def StatusRun.text (r : StatusRun) : String :=
  " • " ++ r.msg ++ "...\n" ++ linesText r.shown ++
    " " ++ (if r.ok then "✓" else "✗") ++ " " ++ r.msg ++ "\n"

def transcript (runs : List StatusRun) : String :=
  String.join (runs.map StatusRun.text)

@[simp] theorem transcript_nil : transcript [] = "" := rfl

@[simp] theorem transcript_append (rs qs : List StatusRun) :
    transcript (rs ++ qs) = transcript rs ++ transcript qs := by
  simp [transcript, String.join_append]

@[simp] theorem transcript_singleton (r : StatusRun) : transcript [r] = r.text := by
  simp [transcript]

/-- The statuses shown against those planned: the planned ones in order, every one before the
last having succeeded, and all that were planned once none failed. -/
structure StatusTrail (planned : List String) (runs : List StatusRun) : Prop where
  in_order : runs.map StatusRun.msg <+: planned
  ok_before_last : ∀ x ∈ runs.dropLast, x.ok = true
  complete : (∀ x ∈ runs, x.ok = true) → runs.map StatusRun.msg = planned

namespace StatusTrail

variable {planned planned' : List String} {runs runs' : List StatusRun}

theorem nil : StatusTrail [] [] :=
  ⟨List.prefix_refl _, by simp, fun _ => rfl⟩

theorem single (msg : String) (ls : List String) (ok : Bool) :
    StatusTrail [msg] [⟨msg, ls, ok⟩] :=
  ⟨List.prefix_refl _, by simp, fun _ => rfl⟩

theorem append (h : StatusTrail planned runs) (hok : ∀ x ∈ runs, x.ok = true)
    (h' : StatusTrail planned' runs') : StatusTrail (planned ++ planned') (runs ++ runs') := by
  have hmsg := h.complete hok
  refine ⟨?_, fun x hx => ?_, fun hall => ?_⟩
  · rw [List.map_append, hmsg]
    exact (List.prefix_append_right_inj planned).mpr h'.in_order
  · -- the last status is the next step's, unless that step showed none
    rw [List.dropLast_append] at hx
    split at hx
    · exact hok x (List.dropLast_subset _ hx)
    · rcases List.mem_append.mp hx with hx | hx
      · exact hok x hx
      · exact h'.ok_before_last x hx
  · rw [List.map_append, hmsg, h'.complete fun x hx => hall x (List.mem_append_right _ hx)]

theorem stop (h : StatusTrail planned runs) (hfail : ∃ x ∈ runs, x.ok = false) :
    StatusTrail (planned ++ planned') runs := by
  refine ⟨h.in_order.trans (List.prefix_append _ _), h.ok_before_last, fun hall => ?_⟩
  obtain ⟨x, hx, hbad⟩ := hfail
  simp [hall x hx] at hbad

end StatusTrail

/-! ### Steps that print lines, and steps that show statuses -/

/-- From every world, step `m` writes some lines to the console, and none when `shows` is
false. -/
def PushM.PrintsLines (m : PushM σ α) (shows : Bool) : Prop :=
  ∀ w, ∃ ls, (PushM.exec m w).2.console.text = w.console.text ++ linesText ls ∧
    (shows = false → ls = [])

/-- Step `m`, run from `w`, showed the statuses `runs` of those `planned`: the console gained
their text, they follow the plan, the step failed exactly when one of them did, and only a status
that `shows` allows printed lines of its own. -/
structure StatusesShown (m : PushM σ α) (w : World σ) (planned : List String)
    (shows : String → Bool) (runs : List StatusRun) : Prop where
  text : (PushM.exec m w).2.console.text = w.console.text ++ transcript runs
  trail : StatusTrail planned runs
  fails_iff : (PushM.exec m w).1.isOk = false ↔ ∃ x ∈ runs, x.ok = false
  own_lines : ∀ x ∈ runs, x.shown ≠ [] → shows x.msg = true

namespace PushM

variable {m : PushM σ α} {shows : Bool}

theorem PrintsLines.mono (h : PrintsLines m false) : PrintsLines m shows := by
  intro w
  obtain ⟨ls, htext, hnone⟩ := h w
  exact ⟨ls, htext, fun _ => hnone rfl⟩

theorem PrintsLines.of_console (h : ∀ w, (PushM.exec m w).2.console = w.console) :
    PrintsLines m shows :=
  fun w => ⟨[], by simp [h w], fun _ => rfl⟩

theorem prints_pure (a : α) : PrintsLines (pure a : PushM σ α) shows :=
  PrintsLines.of_console fun _ => rfl

theorem prints_bind {f : α → PushM σ β} (hm : PrintsLines m shows)
    (hf : ∀ a, PrintsLines (f a) shows) : PrintsLines (m >>= f) shows := by
  intro w
  obtain ⟨ls, htext, hnone⟩ := hm w
  rw [PushM.exec_bind]
  rcases hrun : PushM.exec m w with ⟨_ | a, w'⟩
  · rw [hrun] at htext
    exact ⟨ls, htext, hnone⟩
  · rw [hrun] at htext
    obtain ⟨ls', htext', hnone'⟩ := hf a w'
    refine ⟨ls ++ ls', ?_, fun hs => by simp [hnone hs, hnone' hs]⟩
    dsimp only at htext ⊢
    rw [htext', htext, linesText_append, String.append_assoc]

theorem prints_onTarget (s : StateM σ α) : PrintsLines (onTarget s) shows :=
  PrintsLines.of_console fun _ => rfl

theorem prints_orFail {ε : Type} (r : Except ε α) (f : ε → SyncError) :
    PrintsLines (orFail r f : PushM σ α) shows :=
  PrintsLines.of_console fun _ => by cases r <;> rfl

theorem prints_get : PrintsLines (get : PushM σ (World σ)) shows :=
  PrintsLines.of_console fun _ => rfl

theorem prints_throw (e : SyncError) : PrintsLines (throw e : PushM σ α) shows :=
  PrintsLines.of_console fun _ => rfl

end PushM

/-! ### What each part of a push prints -/

section Parts

variable {shows : Bool}

open PushM in
theorem transfer_prints (t : Target σ) (inst : Instance) (target : SyncTarget) (root : Path)
    (files : List String) : PushM.PrintsLines (transfer t inst target root files) shows := by
  unfold transfer
  refine prints_bind prints_get fun w => prints_bind (prints_onTarget _) fun taken =>
    prints_bind (prints_orFail _ _) fun _ => ?_
  split
  · exact prints_throw _
  · exact prints_pure _

theorem fullTree_prints (root : Path) (rules : RuleSet) :
    PushM.PrintsLines (fullTree root rules : PushM σ _) shows :=
  PushM.PrintsLines.of_console fun w => by simp

def syncSteps (t : Target σ) (target : SyncTarget) (root : Path) (rules : RuleSet)
    (changed deleted : List String) (force : Bool) : PushM σ SyncOutcome := do
  let inst ← reachInstance t target
  let removed ← removeDeleted t inst target deleted
  if changed.isEmpty && !force then return ⟨some inst, removed, []⟩
  let files ← sendChanged t inst target root rules changed
  return ⟨some inst, removed, files⟩

theorem syncFiles_status (t : Target σ) (target : SyncTarget) (root : Path) (rules : RuleSet)
    (changed deleted : List String) (force : Bool) :
    syncFiles t target root rules changed deleted force =
      if syncSkipped changed deleted force then pure ⟨none, [], []⟩
      else withStatus syncMessage (syncSteps t target root rules changed deleted force) :=
  syncFiles_eq t target root rules changed deleted force

open PushM in
theorem syncSteps_prints (t : Target σ) (target : SyncTarget) (root : Path) (rules : RuleSet)
    (changed deleted : List String) (force : Bool) :
    PushM.PrintsLines (syncSteps t target root rules changed deleted force) shows := by
  unfold syncSteps reachInstance removeDeleted sendChanged
  refine prints_bind (prints_bind (prints_onTarget _) fun _ => prints_orFail _ _) fun inst =>
    prints_bind ?_ fun removed => ?_
  · split
    · exact prints_pure _
    · exact prints_bind (prints_onTarget _) fun _ =>
        prints_bind (prints_orFail _ _) fun _ => prints_pure _
  · split
    · exact prints_pure _
    · refine prints_bind (prints_bind ?_ fun files =>
        prints_bind (transfer_prints _ _ _ _ _) fun _ => prints_pure _) fun _ => prints_pure _
      split
      · exact fullTree_prints _ _
      · exact prints_pure _

theorem syncSteps_reaches {t : Target σ} {target : SyncTarget} {root : Path} {rules : RuleSet}
    {changed deleted : List String} {force : Bool} {w w' : World σ} {o : SyncOutcome}
    (h : PushM.exec (syncSteps t target root rules changed deleted force) w = (.ok o, w')) :
    ∃ inst, o.instance_ = some inst := by
  unfold syncSteps at h
  obtain ⟨inst, _, -, h⟩ := PushM.exec_bind_ok h
  obtain ⟨removed, _, -, h⟩ := PushM.exec_bind_ok h
  split at h
  · cases h
    exact ⟨inst, rfl⟩
  · obtain ⟨files, _, -, h⟩ := PushM.exec_bind_ok h
    cases h
    exact ⟨inst, rfl⟩

theorem trigger_prints (t : Target σ) (inst : Instance) (container : String) (argv : List String)
    (showOutput : Bool) :
    PushM.PrintsLines (trigger t inst container argv showOutput) showOutput := by
  intro w
  refine ⟨if showOutput then scanLines ((t.exec inst container argv).run w.target).1.1 else [],
    ?_, fun h => by simp [h]⟩
  rcases hrun : (t.exec inst container argv).run w.target with ⟨⟨chunks, ending⟩, target'⟩
  cases showOutput <;> cases ending <;>
    simp [trigger, hrun, Console.foldl_line_text]

theorem recordScan_prints (plan : PushPlan) (scanned : Option Scan) (outcome : SyncOutcome) :
    PushM.PrintsLines (recordScan plan scanned outcome : PushM σ Unit) shows :=
  PushM.PrintsLines.of_console fun w => by
    rw [exec_recordScan_frame]

end Parts

/-! ### Showing statuses, step by step -/

section Shown

variable {shows : String → Bool} {w : World σ} {planned planned' : List String}
  {runs : List StatusRun}

theorem shown_pure (a : α) (w : World σ) : StatusesShown (pure a : PushM σ α) w [] shows [] :=
  ⟨by simp, StatusTrail.nil, by simp, by simp⟩

theorem shown_status {step : PushM σ α} {msg : String} (hstep : PushM.PrintsLines step (shows msg))
    (w : World σ) : ∃ runs, StatusesShown (withStatus msg step) w [msg] shows runs := by
  obtain ⟨ls, htext, hnone⟩ := hstep { w with console := w.console.begin msg }
  rcases hrun : PushM.exec step { w with console := w.console.begin msg } with ⟨r, w'⟩
  rw [hrun] at htext
  dsimp only at htext
  refine ⟨[⟨msg, ls, r.isOk⟩], ⟨?_, StatusTrail.single _ _ _, ?_, ?_⟩⟩
  · rw [exec_withStatus, hrun]
    cases r <;> simp [htext, Console.begin, Console.finish, StatusRun.text, String.append_assoc]
  · rw [exec_withStatus, hrun]
    cases r <;> simp
  · intro x hx hshown
    rw [List.mem_singleton] at hx
    subst hx
    cases hs : shows msg
    · exact absurd (hnone hs) hshown
    · rfl

theorem shown_bind {m : PushM σ α} {f : α → PushM σ β} (hm : StatusesShown m w planned shows runs)
    (hf : ∀ a w', PushM.exec m w = (.ok a, w') → ∃ runs', StatusesShown (f a) w' planned' shows runs') :
    ∃ runs', StatusesShown (m >>= f) w (planned ++ planned') shows runs' := by
  have htext := hm.text
  rcases hrun : PushM.exec m w with ⟨_ | a, w'⟩
  · -- the step failed, so one of its statuses did, and nothing after it runs
    have hfail : ∃ x ∈ runs, x.ok = false := hm.fails_iff.mp (by simp [hrun])
    rw [hrun] at htext
    refine ⟨runs, ⟨?_, hm.trail.stop hfail, ?_, hm.own_lines⟩⟩
    · simpa [PushM.exec_bind, hrun] using htext
    · simp [PushM.exec_bind, hrun, hfail]
  · -- the step returned, so all its statuses succeeded
    have hok : ∀ x ∈ runs, x.ok = true := by
      intro x hx
      cases hbad : x.ok
      · have := hm.fails_iff.mpr ⟨x, hx, hbad⟩
        simp [hrun] at this
      · rfl
    rw [hrun] at htext
    obtain ⟨runs', hf'⟩ := hf a w' hrun
    refine ⟨runs ++ runs', ⟨?_, hm.trail.append hok hf'.trail, ?_, ?_⟩⟩
    · simp only [PushM.exec_bind, hrun, hf'.text, transcript_append, ← String.append_assoc]
      simpa using htext
    · simp only [PushM.exec_bind, hrun, hf'.fails_iff, List.mem_append]
      constructor
      · rintro ⟨x, hx, hbad⟩
        exact ⟨x, .inr hx, hbad⟩
      · rintro ⟨x, hx | hx, hbad⟩
        · simp [hok x hx] at hbad
        · exact ⟨x, hx, hbad⟩
    · intro x hx
      rcases List.mem_append.mp hx with hx | hx
      · exact hm.own_lines x hx
      · exact hf'.own_lines x hx

theorem shown_after_silent {m : PushM σ α} {f : α → PushM σ β} {a : α}
    (hm : PushM.exec m w = (.ok a, w)) (hf : ∃ runs, StatusesShown (f a) w planned shows runs) :
    ∃ runs, StatusesShown (m >>= f) w planned shows runs := by
  obtain ⟨runs, h⟩ := hf
  have hexec : PushM.exec (m >>= f) w = PushM.exec (f a) w := by
    rw [PushM.exec_bind, hm]
  exact ⟨runs, ⟨hexec ▸ h.text, h.trail, hexec ▸ h.fails_iff, h.own_lines⟩⟩

theorem shown_map {m : PushM σ α} (f : α → β) (hm : StatusesShown m w planned shows runs) :
    ∃ runs', StatusesShown (f <$> m) w planned shows runs' := by
  rw [map_eq_pure_bind]
  simpa using shown_bind hm fun a w' _ => ⟨[], shown_pure (f a) w'⟩

end Shown

/-! ### The statuses of a push -/

/-- The statuses a push shows lines under: the build's, when its output is shown. -/
def PushPlan.showsLines (plan : PushPlan) (msg : String) : Bool :=
  msg == "Building source code" && plan.showLog

/-- The statuses of the commands a plan runs after its sync, in order. -/
def PushPlan.commandStatuses (plan : PushPlan) : List String :=
  (plan.build.map fun _ => "Building source code").toList ++
    (plan.reload.map fun _ => "Reloading the application").toList

/-- The statuses a push from a tree plans: the sync's, then the commands'; none when the scan
fails or there is nothing to sync. -/
def PushPlan.statuses (plan : PushPlan) (ws : Workspace) (now : Time.Instant) : List String :=
  match plan.found ws now with
  | .ok (_, changed, deleted) =>
    if syncSkipped changed deleted plan.forcePush then []
    else "Syncing files to the component" :: plan.commandStatuses
  | .error _ => []

/-- The build command under its status, when the plan has one; its output. -/
def buildStep (t : Target σ) (inst : Instance) (plan : PushPlan) : PushM σ (Option String) :=
  match plan.build with
  | none => pure none
  | some b => some <$> withStatus "Building source code" (trigger t inst b.container b.argv plan.showLog)

/-- The reload command under its status, when the plan has one. -/
def reloadStep (t : Target σ) (inst : Instance) (plan : PushPlan) : PushM σ Unit :=
  match plan.reload with
  | none => pure ()
  | some r => discard <| withStatus "Reloading the application" (trigger t inst r.container r.argv false)

theorem runTriggers_reached {t : Target σ} {plan : PushPlan} {o : SyncOutcome} {inst : Instance}
    (h : o.instance_ = some inst) :
    runTriggers t plan o = (do
      let out ← buildStep t inst plan
      reloadStep t inst plan
      pure out) := by
  unfold runTriggers buildStep reloadStep
  rw [h]
  cases plan.build <;> cases plan.reload <;> simp

theorem commandStep_shown {γ : Type} {shows : String → Bool} (cmd : Option γ) (msg : String)
    {step : γ → PushM σ α} (g : α → β) (b : β)
    (hstep : ∀ c, PushM.PrintsLines (step c) (shows msg)) (w : World σ) :
    ∃ runs, StatusesShown (cmd.elim (pure b) fun c => g <$> withStatus msg (step c)) w
      (cmd.map fun _ => msg).toList shows runs := by
  cases cmd with
  | none => exact ⟨[], shown_pure b w⟩
  | some c =>
    obtain ⟨runs, hrun⟩ := shown_status (hstep c) w
    exact shown_map g hrun

theorem buildStep_shown (t : Target σ) (inst : Instance) (plan : PushPlan) (w : World σ) :
    ∃ runs, StatusesShown (buildStep t inst plan) w
      (plan.build.map fun _ => "Building source code").toList plan.showsLines runs := by
  have hstep : buildStep t inst plan = plan.build.elim (pure none) fun b =>
      some <$> withStatus "Building source code"
        (trigger t inst b.container b.argv plan.showLog) := by
    unfold buildStep
    cases plan.build <;> rfl
  rw [hstep]
  have hprints : ∀ b : TriggerCommand,
      PushM.PrintsLines (trigger t inst b.container b.argv plan.showLog)
        (plan.showsLines "Building source code") := fun b => by
    simpa [PushPlan.showsLines] using trigger_prints t inst b.container b.argv plan.showLog
  exact commandStep_shown plan.build _ some none hprints w

theorem reloadStep_shown (t : Target σ) (inst : Instance) (plan : PushPlan) (w : World σ) :
    ∃ runs, StatusesShown (reloadStep t inst plan) w
      (plan.reload.map fun _ => "Reloading the application").toList plan.showsLines runs := by
  have hstep : reloadStep t inst plan = plan.reload.elim (pure ()) fun r =>
      (fun _ => ()) <$> withStatus "Reloading the application"
        (trigger t inst r.container r.argv false) := by
    unfold reloadStep
    cases plan.reload <;> rfl
  rw [hstep]
  have hprints : ∀ r : TriggerCommand,
      PushM.PrintsLines (trigger t inst r.container r.argv false)
        (plan.showsLines "Reloading the application") :=
    fun r => (trigger_prints t inst r.container r.argv false).mono
  exact commandStep_shown plan.reload _ (fun _ => ()) () hprints w

theorem runTriggers_shown (t : Target σ) (plan : PushPlan) {o : SyncOutcome} {inst : Instance}
    (h : o.instance_ = some inst) (w : World σ) :
    ∃ runs, StatusesShown (runTriggers t plan o) w plan.commandStatuses plan.showsLines runs := by
  rw [runTriggers_reached h]
  obtain ⟨runs, hbuild⟩ := buildStep_shown t inst plan w
  have hboth := shown_bind hbuild fun out w' _ => by
    obtain ⟨runs', hreload⟩ := reloadStep_shown t inst plan w'
    exact shown_bind hreload fun _ w'' _ => ⟨[], shown_pure out w''⟩
  simpa [PushPlan.commandStatuses] using hboth

theorem withStatus_returned {step : PushM σ α} {msg : String} {w w' : World σ} {a : α}
    (h : PushM.exec (withStatus msg step) w = (.ok a, w')) :
    ∃ w'', PushM.exec step { w with console := w.console.begin msg } = (.ok a, w'') := by
  rw [exec_withStatus] at h
  split at h
  next w'' hrun =>
    cases h
    exact ⟨w'', hrun⟩
  next => cases h

/-- Once its scan succeeded, a push shows the statuses it plans, in order, until one fails, and
delivering its changes fails exactly when one of them does. -/
theorem deliver_shown (t : Target σ) (plan : PushPlan) {w : World σ}
    {found : Option Scan × List String × List String}
    (hfound : plan.found w.files w.now = .ok found) :
    ∃ runs, StatusesShown (deliver t plan) w (plan.statuses w.files w.now) plan.showsLines runs := by
  obtain ⟨scanned, changed, deleted⟩ := found
  unfold deliver
  refine shown_after_silent (by rw [exec_changes, hfound]) ?_
  dsimp only
  rw [syncFiles_status]
  split
  next hskip =>
    -- nothing to sync: no status at all, and no command runs
    have hplanned : plan.statuses w.files w.now = [] := by
      simp [PushPlan.statuses, hfound, hskip]
    rw [hplanned, pure_bind]
    exact ⟨[], shown_pure _ w⟩
  next hskip =>
    have hplanned : plan.statuses w.files w.now =
        ["Syncing files to the component"] ++ (plan.commandStatuses ++ []) := by
      simp [PushPlan.statuses, hfound, hskip]
    rw [hplanned]
    obtain ⟨runs, hsync⟩ :=
      shown_status (syncSteps_prints t plan.target plan.sourceRoot plan.ignore changed deleted
        plan.forcePush) w
    refine shown_bind hsync fun outcome w' hran => ?_
    -- a sync that returned reached an instance, so the commands run
    obtain ⟨w'', hsteps⟩ := withStatus_returned hran
    obtain ⟨inst, hinst⟩ := syncSteps_reaches hsteps
    obtain ⟨runs', hcommands⟩ := runTriggers_shown t plan hinst w'
    exact shown_bind hcommands fun out w₃ _ => ⟨[], shown_pure _ w₃⟩

theorem deliver_scan_failed (t : Target σ) (plan : PushPlan) {w : World σ} {e : SyncError}
    (hfound : plan.found w.files w.now = .error e) :
    PushM.exec (deliver t plan) w = (.error e, w) := by
  unfold deliver
  rw [PushM.exec_bind, exec_changes, hfound]

theorem push_console (t : Target σ) (plan : PushPlan) (w : World σ) :
    (PushM.exec (push t plan) w).2.console.text = (PushM.exec (deliver t plan) w).2.console.text := by
  rw [push_eq, PushM.exec_bind]
  rcases hrun : PushM.exec (deliver t plan) w with ⟨_ | ⟨scanned, report⟩, w'⟩
  · rfl
  · have hrecord : PushM.PrintsLines (recordScan plan scanned report.outcome : PushM σ Unit)
        false :=
      recordScan_prints plan scanned report.outcome
    obtain ⟨ls, htext, hnone⟩ := hrecord w'
    rcases hstore : PushM.exec (recordScan plan scanned report.outcome) w' with ⟨r, w''⟩
    rw [hstore] at htext
    simp only [PushM.exec_bind, PushM.exec_pure, hstore]
    cases r <;> simpa [hnone rfl] using htext

/-- What a push shows on the console, whatever the target answers: the text of statuses, each a
pending line, the lines of its own step and one completion line. They are the statuses the push
plans from its tree (the sync's, then the build's and the reload's; none when the scan fails or
there is nothing to sync), in order, every one before the last succeeded, and all were shown
unless one failed. Delivering the changes, everything of the push before its scan is stored,
fails exactly when the scan or one of the statuses does; only the build's status shows lines of
its own, and only when the plan shows the build's output. -/
theorem push_progress_lines (t : Target σ) (plan : PushPlan) (w : World σ) :
    ∃ runs, (PushM.exec (push t plan) w).2.console.text = w.console.text ++ transcript runs ∧
      StatusTrail (plan.statuses w.files w.now) runs ∧
      ((PushM.exec (deliver t plan) w).1.isOk = false ↔
        (plan.found w.files w.now).isOk = false ∨ ∃ x ∈ runs, x.ok = false) ∧
      ∀ x ∈ runs, x.shown ≠ [] → x.msg = "Building source code" ∧ plan.showLog = true := by
  rcases hfound : plan.found w.files w.now with e | found
  · -- the scan failed: the push shows nothing
    have hplanned : plan.statuses w.files w.now = [] := by simp [PushPlan.statuses, hfound]
    refine ⟨[], ?_, hplanned ▸ StatusTrail.nil, ?_, by simp⟩
    · rw [push_console, deliver_scan_failed t plan hfound]
      simp
    · simp [deliver_scan_failed t plan hfound]
  · obtain ⟨runs, h⟩ := deliver_shown t plan hfound
    refine ⟨runs, by rw [push_console, h.text], h.trail, by simpa using h.fails_iff,
      fun x hx hshown => ?_⟩
    simpa [PushPlan.showsLines] using h.own_lines x hx hshown

/-- A forced push of an empty tree sends an empty archive: it changes nothing on the target, yet
it shows the sync's status. -/
theorem forced_empty_push_shows_sync :
    let w : World Recording := ⟨⟨[], .ext4⟩, Console.empty, Recording.fresh, ⟨0, 0⟩⟩
    let plan : PushPlan := ⟨[], ⟨[]⟩, ⟨"app=api", "build", "/projects/api", []⟩, true, none,
      none, false, none⟩
    ∃ report, (PushM.exec (push Recording.target plan) w).1 = .ok report ∧
      report.isNoop = true ∧
      (PushM.exec (push Recording.target plan) w).2.console.text =
        " • Syncing files to the component...\n ✓ Syncing files to the component\n" := by
  intro w plan
  have htop : Path.tooLong [] = false := by decide
  have hdir : (⟨[], .ext4⟩ : Workspace).readDir [] = .ok [] := by
    simp only [Workspace.readDir, Workspace.resolve_nil, htop]
    simp [bind, Except.bind, pure, Except.pure]
  have hnone : (⟨[], .ext4⟩ : Workspace).exists? (indexPath []) = false := by decide
  have hsnap : snapshot ⟨[], .ext4⟩ [] ⟨[]⟩ (FileIndex.empty ⟨0, 0⟩) ⟨0, 0⟩ =
      .ok (FileIndex.empty ⟨0, 0⟩) := by
    simp [snapshot, walkFrom, hdir, pure, Except.pure]
  have hscan : scan ⟨[], .ext4⟩ [] ⟨[]⟩ ⟨0, 0⟩ = .ok ⟨[], [], FileIndex.empty ⟨0, 0⟩⟩ := by
    simp [scan, FileIndex.load, hnone, scanAgainst, snapshot, walkFrom, hdir, bind, Except.bind,
      pure, Except.pure, FileIndex.empty, FileIndex.paths, SortedMap.empty, SortedMap.keys]
  have hfound : plan.found w.files w.now = .ok (some ⟨[], [], FileIndex.empty ⟨0, 0⟩⟩, [], []) := by
    simp [PushPlan.found, plan, w, hscan, Except.map]
  have hkeys : (FileIndex.empty ⟨0, 0⟩).files.keys = [] := rfl
  simp [push_eq, deliver, hkeys, exec_changes, hfound, plan, w, syncFiles_status, syncSkipped,
    syncSteps, reachInstance, removeDeleted, sendChanged, hsnap, FileIndex.paths, transfer,
    Recording.fresh, ArchiveRun.build, runTriggers, recordScan, SyncOutcome.isNoop,
    PushReport.isNoop, Console.begin, Console.finish, Console.empty, syncMessage, Except.map]

end ComponentSync
