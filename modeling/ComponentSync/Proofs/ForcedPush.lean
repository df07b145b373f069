import ComponentSync.Proofs.Lookup
import ComponentSync.Proofs.CallProtocol
/-! What a forced push sends. Forcing makes a push send files even when nothing changed against
the stored index, and then it sends every file of the tree; when some paths did change, it sends
those and no others. So the index left by an earlier target, not the target, decides what a
forced push streams. -/
namespace ComponentSync

variable (target : SyncTarget) (root : Path) (rules : RuleSet)

theorem push_ok_allPass {plan : PushPlan} {w : World Recording} {report : PushReport}
    (h : (PushM.exec (push Recording.target plan) w).1 = .ok report) :
    Stage.allPass (pushStages w plan) = true := by
  obtain ⟨-, hres⟩ := runs_deliver plan w
  rw [push_eq, PushM.exec_bind] at h
  rcases hexec : PushM.exec (deliver Recording.target plan) w with ⟨r, w₁⟩
  rw [hexec] at h hres
  cases r with
  | error => simp at h
  | ok x =>
    cases hpass : Stage.allPass (pushStages w plan)
    · simp [hpass] at hres
    · rfl

/-- A push of a plan that scans its tree returns only after a scan that succeeded, and it works
on that scan's paths. -/
theorem push_ok_scan {plan : PushPlan} {w : World Recording} {report : PushReport}
    (hscanned : plan.files = none)
    (h : (PushM.exec (push Recording.target plan) w).1 = .ok report) :
    ∃ s, scan w.files plan.sourceRoot plan.ignore w.now = .ok s ∧
      plan.found w.files w.now = .ok (some s, s.changed, s.deleted) := by
  have hpass := push_ok_allPass h
  cases hs : scan w.files plan.sourceRoot plan.ignore w.now with
  | ok s => exact ⟨s, rfl, by simp [PushPlan.found, hscanned, hs, Except.map]⟩
  | error e => simp [pushStages, PushPlan.found, hscanned, hs, Except.map, Stage.failed] at hpass

/-- After a scan of a well-named tree, a sync sends the changed paths, or every key of the
scan's snapshot when none changed. -/
theorem sentPaths_of_scan {ws : Workspace} (hw : ws.WellNamed) {now : Time.Instant} {s : Scan}
    {files : List String} (hscan : scan ws root rules now = .ok s)
    (hsent : sentPaths root rules ws now s.changed = .ok files) :
    files = if s.changed = [] then s.snapshot.paths else s.changed := by
  obtain ⟨hsound, hsub⟩ := scan_keysSound hw hscan
  unfold sentPaths at hsent
  split at hsent
  · next hnil =>
    rw [if_pos (List.isEmpty_iff.mp hnil)]
    obtain ⟨snap, hsnap, rfl⟩ := Except.map_eq_ok hsent
    obtain ⟨previous, hprev⟩ := scan_snapshot hscan
    exact snapshot_paths_eq hsnap hprev
  · next hne =>
    rw [if_neg fun h => hne (List.isEmpty_iff.mpr h)]
    cases hsent
    refine List.filter_eq_self.mpr fun p hp => ?_
    obtain ⟨-, -, -, -, -, hkeep⟩ := hsound.1 p (hsub.subset hp)
    simp [hkeep]

/-- A send stage that passes has recorded the archive of the paths chosen, and the archive
ended without a fault. -/
theorem send_passes {r : Recording} {ws : Workspace} {sent : Except SyncError (List String)}
    (h : (Stage.send target root r ws sent).stops = false) :
    ∃ files, sent = .ok files ∧ (ArchiveRun.build ws root files).failure = none ∧
      Stage.send target root r ws sent = ⟨some (.archive target.container target.destination
        ((ArchiveRun.build ws root files).entries.map fun e => (e.name, e.content))), false⟩ := by
  rcases sent with e | files
  · simp [Stage.send, Stage.failed] at h
  · cases hrefused : r.failArchive
    · -- an archive that is not refused is recorded; passing, it ended without a fault
      have hfault : (ArchiveRun.build ws root files).failure = none := by
        simpa [Stage.send, Stage.archive, hrefused] using h
      exact ⟨files, rfl, hfault, by simp [Stage.send, Stage.archive, hrefused, hfault]⟩
    · simp [Stage.send, Stage.archive, Stage.failed, hrefused] at h

/-- A forced sync whose stages all pass has recorded the archive of the paths it chose, and
that archive ended without a fault. -/
theorem syncStages_forced_archive {r : Recording} {ws : Workspace} {now : Time.Instant}
    {changed deleted : List String}
    (h : Stage.allPass (syncStages target root rules r ws now changed deleted true) = true) :
    ∃ files, sentPaths root rules ws now changed = .ok files ∧
      (ArchiveRun.build ws root files).failure = none ∧
      Call.archive target.container target.destination
        ((ArchiveRun.build ws root files).entries.map fun e => (e.name, e.content)) ∈
        Stage.recorded (syncStages target root rules r ws now changed deleted true) := by
  have hsend : Stage.send target root r ws (sentPaths root rules ws now changed) ∈
      syncStages target root rules r ws now changed deleted true := by
    simp [syncStages]
  have hpass := List.all_eq_true.mp h _ hsend
  obtain ⟨files, hs, hfault, hstage⟩ := send_passes target root (by simpa using hpass)
  rw [hstage] at hsend
  exact ⟨files, hs, hfault, Stage.mem_recorded h hsend rfl⟩

/-- A forced push of a well-named tree that scans it and returns has streamed an archive, with
no fault, among the calls it made. The archive's entries are named by every key of the scan's
snapshot when no path changed against the stored index, and otherwise by exactly the changed
paths, which are some of those keys: a file the index records as it is stays behind. -/
theorem forced_push_archive (plan : PushPlan) (w : World Recording) (hw : w.files.WellNamed)
    (hforce : plan.forcePush = true) (hscanned : plan.files = none) :
    ∀ report, (PushM.exec (push Recording.target plan) w).1 = .ok report →
      ∃ s entries calls, scan w.files plan.sourceRoot plan.ignore w.now = .ok s ∧
        s.changed.Sublist s.snapshot.paths ∧
        (PushM.exec (push Recording.target plan) w).2.target.calls = w.target.calls ++ calls ∧
        Call.archive plan.target.container plan.target.destination entries ∈ calls ∧
        entries.map Prod.fst = if s.changed = [] then s.snapshot.paths else s.changed := by
  intro report hok
  have hpass := push_ok_allPass hok
  obtain ⟨s, hscan, hfound⟩ := push_ok_scan hscanned hok
  have hstages : pushStages w plan = syncStages plan.target plan.sourceRoot plan.ignore w.target
      w.files w.now s.changed s.deleted true ++ Stage.commands w.target plan := by
    simp [pushStages, hfound, syncSkipped, hforce]
  rw [hstages, Stage.allPass_append, Bool.and_eq_true] at hpass
  obtain ⟨files, hsent, hfault, harchive⟩ :=
    syncStages_forced_archive plan.target plan.sourceRoot plan.ignore hpass.1
  refine ⟨s, (ArchiveRun.build w.files plan.sourceRoot files).entries.map
    (fun e => (e.name, e.content)), Stage.recorded (pushStages w plan), hscan,
    (scan_keysSound hw hscan).2, by rw [push_calls], ?_, ?_⟩
  · rw [hstages, Stage.recorded_append, if_pos hpass.1]
    exact List.mem_append_left _ harchive
  · -- with no fault, the archive names its entries by the paths sent
    have hnames := (build_names_snapshotKeys files
      (sentPaths_snapshotKeys hw hscanned hfound hsent)).2 hfault
    calc _ = (ArchiveRun.build w.files plan.sourceRoot files).entries.map (·.name) := by simp
      _ = files := hnames
      _ = _ := sentPaths_of_scan plan.sourceRoot plan.ignore hw hscan hsent

/-- What a forced push streams, at a one-file tree. -/
theorem forced_push_archive_one_file :
    let w : World Recording :=
      ⟨⟨[(["a.txt"], .file ByteArray.empty ⟨0, 0⟩)], .ext4⟩, Console.empty, Recording.fresh, ⟨0, 0⟩⟩
    let plan : PushPlan := ⟨[], ⟨[]⟩, ⟨"app=api", "build", "/projects/api", []⟩, true, none,
      none, false, none⟩
    (w.files.WellNamed ∧ plan.forcePush = true ∧ plan.files = none) ∧
      ∀ report, (PushM.exec (push Recording.target plan) w).1 = .ok report →
        ∃ s entries calls, scan w.files plan.sourceRoot plan.ignore w.now = .ok s ∧
          s.changed.Sublist s.snapshot.paths ∧
          (PushM.exec (push Recording.target plan) w).2.target.calls = w.target.calls ++ calls ∧
          Call.archive plan.target.container plan.target.destination entries ∈ calls ∧
          entries.map Prod.fst = if s.changed = [] then s.snapshot.paths else s.changed := by
  intro w plan
  exact ⟨⟨by decide, rfl, rfl⟩, forced_push_archive plan w (by decide) rfl rfl⟩

theorem RuleSet.isIgnored_none (p : String) : (⟨[]⟩ : RuleSet).isIgnored p = false := by
  simp [RuleSet.isIgnored]

/-- Against an index that records `a.txt` as it is, a scan of `a.txt` and `b.txt` finds only
`b.txt` changed, and a forced sync then streams `b.txt` alone: `a.txt`, a key of the snapshot,
is not sent. -/
theorem forced_sync_skips_indexed_file :
    let ws : Workspace := ⟨[(["a.txt"], .file ByteArray.empty ⟨0, 0⟩),
      (["b.txt"], .file ByteArray.empty ⟨0, 0⟩)], .ext4⟩
    let previous : FileIndex := (FileIndex.empty ⟨0, 0⟩).insert "a.txt" ⟨"d", 0, ⟨0, 0⟩⟩
    let target : SyncTarget := ⟨"app=api", "build", "/projects/api", []⟩
    ∃ s, scanAgainst ws [] ⟨[]⟩ previous ⟨0, 0⟩ = .ok s ∧
      s.snapshot.paths = ["a.txt", "b.txt"] ∧
      (PushM.exec (syncFiles Recording.target target [] ⟨[]⟩ s.changed s.deleted true)
        ⟨ws, Console.empty, Recording.fresh, ⟨0, 0⟩⟩).2.target.calls =
        [.resolve "app=api", .archive "build" "/projects/api" [("b.txt", ByteArray.empty)]] := by
  intro ws previous target
  have hsort : [("a.txt", Node.file ByteArray.empty ⟨0, 0⟩),
      ("b.txt", Node.file ByteArray.empty ⟨0, 0⟩)].mergeSort (fun a b => decide (a.1 ≤ b.1)) =
      [("a.txt", Node.file ByteArray.empty ⟨0, 0⟩), ("b.txt", Node.file ByteArray.empty ⟨0, 0⟩)] :=
    List.mergeSort_of_pairwise (by simp)
  have htop : Path.tooLong [] = false := by decide
  have hdir : ws.readDir [] = .ok [("a.txt", .file ByteArray.empty ⟨0, 0⟩),
      ("b.txt", .file ByteArray.empty ⟨0, 0⟩)] := by
    simp only [Workspace.readDir, Workspace.resolve_nil, htop]
    simp [ws, bind, Except.bind, pure, Except.pure]
    exact hsort
  have hla : ws.lstat ["a.txt"] = .ok (.file ByteArray.empty ⟨0, 0⟩) := rfl
  have hlb : ws.lstat ["b.txt"] = .ok (.file ByteArray.empty ⟨0, 0⟩) := rfl
  have hrb : ws.readFile ["b.txt"] = .ok ByteArray.empty := rfl
  have hlt : ¬ ("b.txt" : String) < "a.txt" := by decide
  have hne : ("b.txt" : String) ≠ "a.txt" := by decide
  have hscan : scanAgainst ws [] ⟨[]⟩ previous ⟨0, 0⟩ = .ok ⟨["b.txt"], [],
      ⟨⟨0, 0⟩, ⟨[("a.txt", ⟨"d", 0, ⟨0, 0⟩⟩),
        ("b.txt", ⟨Digest.sha256Hex ByteArray.empty, 0, ⟨0, 0⟩⟩)]⟩⟩⟩ := by
    simp [scanAgainst, snapshot, walkFrom, hdir, RuleSet.isIgnored_none, fingerprint,
      fingerprint.fresh, hla, hlb, hrb, previous, bind, Except.bind, pure, Except.pure,
      Except.map, Node.isDir, Node.size, Node.mtime, FileIndex.insert, FileIndex.get?,
      FileIndex.empty, FileIndex.paths, SortedMap.insert, SortedMap.insertList, SortedMap.get?,
      SortedMap.empty, SortedMap.keys, SortedMap.contains, hlt, hne]
  have hv : ∀ c ∈ ["b.txt"], Path.validName c = true := by decide
  have hjoin : Path.join [] "b.txt" = ["b.txt"] := by
    simpa using Path.join_intercalate [] (List.cons_ne_nil "b.txt" []) hv
  have hnorm : normalName false "b.txt" = .ok "b.txt" := by
    simpa using normalName_intercalate false (List.cons_ne_nil _ []) hv
  have hsize : "b.txt".utf8ByteSize ≤ headerFieldSize := by decide
  have hname : entryName "b.txt" = .ok "b.txt" := by simp [entryName, hnorm, hsize]
  have hbuild : (ArchiveRun.build ws [] ["b.txt"]).entries.map (fun e => (e.name, e.content)) =
      [("b.txt", ByteArray.empty)] := by
    simp [ArchiveRun.build, archiveEntry, hjoin, hlb, hname]
  refine ⟨_, hscan, rfl, ?_⟩
  rw [(runs_syncFiles target [] ⟨[]⟩ ["b.txt"] [] true
    ⟨ws, Console.empty, Recording.fresh, ⟨0, 0⟩⟩).1.target]
  simp [syncSkipped, syncStages, Stage.recorded, Stage.resolve, Stage.send, sentPaths,
    Stage.archive, Recording.fresh, RuleSet.isIgnored_none, hbuild, target]

end ComponentSync
