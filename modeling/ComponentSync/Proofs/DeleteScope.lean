import ComponentSync.Proofs.ScanDiff
import ComponentSync.Proofs.CallProtocol
import ComponentSync.Proofs.IgnoreRules
import ComponentSync.Cluster.Exec
import Mathlib.Data.List.TakeWhile
/-! Where remote deletions land. A push removes its deleted paths below every delete root with
one `rm -rf`, whose arguments are each root without its trailing slashes, a `/` and the path.
The deleted paths are keys of the stored index, read back from disk as they were found there.
Read through directories, an argument names a path strictly inside its root when the key is a
relative path of valid names, as every key a scan records is; the empty key names the root
itself, and `..` its parent. -/
namespace ComponentSync

namespace Path

/-- One component of a path read through directories: an empty component and `.` stay where
they are, `..` steps up and a name steps down. -/
def descend (cur : List String) (c : String) : List String :=
  if c == "" || c == "." then cur else if c == ".." then cur.dropLast else cur ++ [c]

/-- The path a text names, as its components from the top directory, when every component it
passes through is a directory. -/
def lexical (text : String) : List String :=
  (pieces text).foldl descend []

/-- A path text names a path strictly below the one `root` names. -/
def StrictlyInside (text root : String) : Prop :=
  ∃ rest, rest ≠ [] ∧ lexical text = lexical root ++ rest

/-- A relative path of valid names joined by `/`, as a scan records its keys. -/
def IsKey (k : String) : Prop :=
  ∃ parts : List String, parts ≠ [] ∧ (∀ c ∈ parts, validName c = true) ∧ k = "/".intercalate parts

theorem pieces_append_slash (a b : String) : pieces (a ++ "/" ++ b) = pieces a ++ pieces b := by
  unfold pieces
  rw [String.toList_append, String.toList_append, show "/".toList = ['/'] from rfl,
    List.append_assoc, List.singleton_append, List.splitOn_append_cons_self, List.map_append]

theorem foldl_descend_names {parts : List String} (hv : ∀ c ∈ parts, validName c = true)
    (cur : List String) : parts.foldl descend cur = cur ++ parts := by
  induction parts generalizing cur with
  | nil => simp
  | cons c rest ih =>
    have hc := hv c List.mem_cons_self
    have hstep : descend cur c = cur ++ [c] := by
      simp [descend, validName_ne_empty hc, validName_ne_dot hc, validName_ne_dotdot hc]
    rw [List.foldl_cons, hstep, ih fun d hd => hv d (List.mem_cons_of_mem _ hd)]
    simp

theorem lexical_append_key (root : String) {parts : List String} (hne : parts ≠ [])
    (hv : ∀ c ∈ parts, validName c = true) :
    lexical (root ++ "/" ++ "/".intercalate parts) = lexical root ++ parts := by
  rw [lexical, pieces_append_slash, List.foldl_append, pieces_intercalate hne hv,
    foldl_descend_names hv]
  rfl

theorem lexical_append_slashes (t : List Char) (n : Nat) :
    lexical (String.ofList (t ++ List.replicate n '/')) = lexical (String.ofList t) := by
  induction n with
  | zero => simp
  | succ n ih =>
    rw [List.replicate_succ', ← List.append_assoc, ← ih]
    unfold lexical pieces
    rw [String.toList_ofList, String.toList_ofList, List.splitOn_append_cons_self,
      List.splitOn_nil, List.map_append, List.foldl_append]
    simp [descend]

theorem lexical_dropTrailingSlashes (root : String) :
    lexical (String.ofList (root.toList.reverse.dropWhile (· == '/')).reverse) = lexical root := by
  have hsplit : root.toList = (root.toList.reverse.dropWhile (· == '/')).reverse ++
      List.replicate (root.toList.reverse.takeWhile (· == '/')).length '/' := by
    have hslashes : (root.toList.reverse.takeWhile (· == '/')).reverse =
        List.replicate (root.toList.reverse.takeWhile (· == '/')).length '/' := by
      rw [← List.length_reverse, List.eq_replicate_iff]
      refine ⟨rfl, fun c hc => ?_⟩
      simpa using List.mem_takeWhile_imp (List.mem_reverse.mp hc)
    rw [← hslashes, ← List.reverse_append, List.takeWhile_append_dropWhile, List.reverse_reverse]
  conv => rhs; rw [← String.ofList_toList (s := root), hsplit]
  rw [lexical_append_slashes]

end Path

/-! ### The delete command -/

section Command

variable {paths roots : List String}

/-- The path arguments of a delete command: every path below every root, the root's trailing
slashes dropped. -/
theorem mem_deleteCommand {arg : String} :
    arg ∈ (deleteCommand paths roots).drop 3 ↔ ∃ root ∈ roots, ∃ p ∈ paths,
      arg = String.ofList (root.toList.reverse.dropWhile (· == '/')).reverse ++ "/" ++ p := by
  simp [deleteCommand, List.mem_flatMap, eq_comm]

/-- Every path argument of a delete command over keys names a path strictly inside one of its
roots. -/
theorem deleteCommand_strictlyInside (hkeys : ∀ p ∈ paths, Path.IsKey p) :
    ∀ arg ∈ (deleteCommand paths roots).drop 3, ∃ root ∈ roots, Path.StrictlyInside arg root := by
  intro arg harg
  obtain ⟨root, hroot, p, hp, rfl⟩ := mem_deleteCommand.mp harg
  obtain ⟨parts, hne, hv, rfl⟩ := hkeys p hp
  exact ⟨root, hroot, parts, hne, by
    rw [Path.lexical_append_key _ hne hv, Path.lexical_dropTrailingSlashes]⟩

end Command

/-! ### The deletions of a push -/

theorem Stage.exists_of_mem_recorded {stages : List Stage} {c : Call}
    (h : c ∈ Stage.recorded stages) : ∃ st ∈ stages, st.call = some c := by
  induction stages with
  | nil => cases h
  | cons st rest ih =>
    simp only [Stage.recorded, List.mem_append] at h
    rcases h with h | h
    · cases hc : st.call with
      | none => simp [hc] at h
      | some c' =>
        simp only [hc, Option.toList_some, List.mem_singleton] at h
        exact ⟨st, List.mem_cons_self, h ▸ hc⟩
    · split at h
      · cases h
      · obtain ⟨st', hst', hc⟩ := ih h
        exact ⟨st', List.mem_cons_of_mem _ hst', hc⟩

section Push

variable {w : World Recording} {plan : PushPlan}

/-- The only stage of a sync that deletes is the deletion of the paths it was given, below the
target's delete roots. -/
theorem syncStages_delete {r : Recording} {ws : Workspace} {now : Time.Instant}
    {changed deleted : List String} {force : Bool} {st : Stage} {container : String}
    {paths roots : List String}
    (hst : st ∈ syncStages plan.target plan.sourceRoot plan.ignore r ws now changed deleted force)
    (hc : st.call = some (.delete container paths roots)) :
    deleted ≠ [] ∧ paths = deleted ∧ roots = plan.target.deleteRoots := by
  simp only [syncStages, List.mem_cons, List.mem_append] at hst
  rcases hst with rfl | hst | hst
  · simp [Stage.resolve] at hc
  · split at hst
    · cases hst
    · next hdel =>
      rw [List.mem_singleton] at hst
      subst hst
      simp only [Stage.delete, Option.some.injEq, Call.delete.injEq] at hc
      exact ⟨by simpa using hdel, hc.2.1.symm, hc.2.2.symm⟩
  · split at hst
    · cases hst
    · rw [List.mem_singleton] at hst
      subst hst
      unfold Stage.send at hc
      split at hc
      · unfold Stage.archive at hc
        split at hc <;> simp [Stage.failed] at hc
      · simp [Stage.failed] at hc

/-- Every delete call of a push removes paths its scan found deleted, below the plan's delete
roots. -/
theorem delete_call_of_push {container : String} {paths roots : List String}
    (h : Call.delete container paths roots ∈ Stage.recorded (pushStages w plan)) :
    roots = plan.target.deleteRoots ∧
      ∃ s, scan w.files plan.sourceRoot plan.ignore w.now = .ok s ∧ paths = s.deleted := by
  obtain ⟨st, hst, hc⟩ := Stage.exists_of_mem_recorded h
  unfold pushStages at hst
  rcases hfound : plan.found w.files w.now with e | ⟨scanned, changed, deleted⟩ <;>
    simp only [hfound] at hst
  · simp only [List.mem_singleton] at hst
    simp [hst, Stage.failed] at hc
  · split at hst
    · cases hst
    rcases List.mem_append.mp hst with hst | hst
    · obtain ⟨hne, rfl, rfl⟩ := syncStages_delete hst hc
      refine ⟨rfl, ?_⟩
      -- a plan with a list of files deletes nothing, so this one scanned its tree
      unfold PushPlan.found at hfound
      cases hfiles : plan.files with
      | some files =>
        rw [hfiles] at hfound
        cases hfound
        exact absurd rfl hne
      | none =>
        rw [hfiles] at hfound
        obtain ⟨s, hs, hsd⟩ := Except.map_eq_ok hfound
        simp only [Prod.mk.injEq] at hsd
        exact ⟨s, hs, hsd.2.2.symm⟩
    · simp only [Stage.commands, List.mem_append, Option.mem_toList, Option.map_eq_some_iff] at hst
      rcases hst with ⟨b, -, rfl⟩ | ⟨b, -, rfl⟩ <;> simp [Stage.exec] at hc

theorem scan_deleted_keys {ws : Workspace} {root : Path} {rules : RuleSet} {now : Time.Instant}
    {s : Scan} (h : scan ws root rules now = .ok s) :
    ∃ previous, FileIndex.load ws root now = .ok previous ∧ ∀ k ∈ s.deleted, k ∈ previous.paths := by
  obtain ⟨previous, hload, -, hscan⟩ := scan_against h
  exact ⟨previous, hload, fun k hk => ((mem_deleted hscan).mp hk).1⟩

/-- A push removes remote paths only strictly inside its delete roots, the destination and the
mirror roots, as long as the index it loads records relative paths of valid names, as every
index a push stores does. -/
theorem push_deletes_inside_roots (plan : PushPlan) (w : World Recording) {previous : FileIndex}
    (hload : FileIndex.load w.files plan.sourceRoot w.now = .ok previous)
    (hkeys : ∀ k ∈ previous.paths, Path.IsKey k) :
    ∃ calls, (PushM.exec (push Recording.target plan) w).2.target.calls = w.target.calls ++ calls ∧
      ∀ container paths roots, Call.delete container paths roots ∈ calls →
        ∀ arg ∈ (deleteCommand paths roots).drop 3,
          ∃ root ∈ plan.target.destination :: plan.target.mirrorRoots,
            Path.StrictlyInside arg root := by
  refine ⟨Stage.recorded (pushStages w plan), by rw [push_calls], ?_⟩
  intro container paths roots hcall arg harg
  obtain ⟨rfl, s, hscan, rfl⟩ := delete_call_of_push hcall
  obtain ⟨previous', hload', hdel⟩ := scan_deleted_keys hscan
  rw [hload] at hload'
  cases hload'
  obtain ⟨root, hroot, hinside⟩ :=
    deleteCommand_strictlyInside (fun p hp => hkeys p (hdel p hp)) arg harg
  rw [deleteRoots_eq_eraseDups] at hroot
  exact ⟨root, List.mem_eraseDups.mp hroot, hinside⟩

end Push

theorem FileIndex.eq_ok_of_entries {x : Except SyncError FileIndex} {t : Time.Instant}
    {es : List (String × FileEntry)}
    (h : x.toOption.map (fun i => (i.syncedAt, i.files.entries)) = some (t, es)) :
    x = .ok ⟨t, ⟨es⟩⟩ := by
  rcases x with e | ⟨t', ⟨es'⟩⟩
  · simp [Except.toOption] at h
  · simp only [Except.toOption, Option.map_some, Option.some.injEq, Prod.mk.injEq] at h
    rw [h.1, h.2]

/-- Deletions at a tree whose index records one file that is gone, pushed to a target with a
mirror root. -/
theorem push_deletes_inside_roots_one_key :
    let ws : Workspace := ⟨[([".odo"], .dir), ([".odo", "odo-file-index.json"], .file
      ("\x7b\"synced_at\": \"1970-01-01T00:00:00Z\", \"files\": \x7b\"gone.txt\": " ++
        "\x7b\"digest\": \"d\", \"size\": 1, \"modified\": \"1970-01-01T00:00:00Z\"" ++
        "\x7d\x7d\x7d").toUTF8 ⟨0, 0⟩)], .ext4⟩
    let w : World Recording := ⟨ws, Console.empty, Recording.fresh, ⟨0, 0⟩⟩
    let plan : PushPlan := ⟨[], RuleSet.builtin, ⟨"app=api", "build", "/projects/api",
      ["/mirror"]⟩, false, none, none, false, none⟩
    let previous : FileIndex := ⟨⟨0, 0⟩, ⟨[("gone.txt", ⟨"d", 1, ⟨0, 0⟩⟩)]⟩⟩
    FileIndex.load w.files plan.sourceRoot w.now = .ok previous ∧
      (∀ k ∈ previous.paths, Path.IsKey k) ∧
      ∃ calls, (PushM.exec (push Recording.target plan) w).2.target.calls =
          w.target.calls ++ calls ∧
        ∀ container paths roots, Call.delete container paths roots ∈ calls →
          ∀ arg ∈ (deleteCommand paths roots).drop 3,
            ∃ root ∈ plan.target.destination :: plan.target.mirrorRoots,
              Path.StrictlyInside arg root := by
  intro ws w plan previous
  have hload : FileIndex.load w.files plan.sourceRoot w.now = .ok previous :=
    FileIndex.eq_ok_of_entries (by decide +kernel)
  have hkeys : ∀ k ∈ previous.paths, Path.IsKey k := by
    simp only [previous, FileIndex.paths, SortedMap.keys, List.map_cons, List.map_nil,
      List.mem_singleton, forall_eq]
    exact ⟨["gone.txt"], List.cons_ne_nil _ _, by decide, rfl⟩
  exact ⟨hload, hkeys, push_deletes_inside_roots plan w hload hkeys⟩

/-- An index that records the empty path, which loading accepts, makes a push remove the
destination itself: the one argument of its `rm -rf` is `/projects/api/`, which names the
destination and nothing inside it. -/
theorem empty_key_removes_destination :
    let ws : Workspace := ⟨[([".odo"], .dir), ([".odo", "odo-file-index.json"], .file
      ("\x7b\"synced_at\": \"1970-01-01T00:00:00Z\", \"files\": \x7b\"\": " ++
        "\x7b\"digest\": \"x\", \"size\": 1, \"modified\": \"1970-01-01T00:00:00Z\"" ++
        "\x7d\x7d\x7d").toUTF8 ⟨0, 0⟩)], .ext4⟩
    let w : World Recording := ⟨ws, Console.empty, Recording.fresh, ⟨0, 0⟩⟩
    let plan : PushPlan := ⟨[], RuleSet.builtin, ⟨"app=api", "build", "/projects/api", []⟩,
      false, none, none, false, none⟩
    (FileIndex.load ws [] ⟨0, 0⟩).toOption.map FileIndex.paths = some [""] ∧
      (PushM.exec (push Recording.target plan) w).2.target.calls =
        [.resolve "app=api", .delete "build" [""] ["/projects/api"]] ∧
      (deleteCommand [""] ["/projects/api"]).drop 3 = ["/projects/api/"] ∧
      ¬ Path.StrictlyInside "/projects/api/" "/projects/api" := by
  intro ws w plan
  have hload : FileIndex.load ws [] ⟨0, 0⟩ = .ok ⟨⟨0, 0⟩, ⟨[("", ⟨"x", 1, ⟨0, 0⟩⟩)]⟩⟩ :=
    FileIndex.eq_ok_of_entries (by decide +kernel)
  have htop : Path.tooLong [] = false := by decide
  have hdir : ws.readDir [] = .ok [(".odo", .dir)] := by
    simp only [Workspace.readDir, Workspace.resolve_nil, htop]
    simp [ws, bind, Except.bind, pure, Except.pure]
  have hodo : RuleSet.builtin.isIgnored ".odo" = true := by
    simpa [toolDir] using RuleSet.builtin_ignores_toolDir
  have hscan : scan ws [] RuleSet.builtin ⟨0, 0⟩ =
      .ok ⟨[], [""], FileIndex.empty ⟨0, 0⟩⟩ := by
    simp [scan, hload, scanAgainst, snapshot, walkFrom, hdir, hodo, bind, Except.bind, pure,
      Except.pure, FileIndex.paths, FileIndex.empty, SortedMap.empty, SortedMap.keys,
      SortedMap.contains]
  have hfound : plan.found ws ⟨0, 0⟩ = .ok (some ⟨[], [""], FileIndex.empty ⟨0, 0⟩⟩, [], [""]) := by
    simp [PushPlan.found, plan, hscan, Except.map]
  have hroots : plan.target.deleteRoots = ["/projects/api"] := rfl
  refine ⟨by rw [hload]; rfl, ?_, rfl, ?_⟩
  · rw [push_calls]
    simp [pushStages, hfound, syncSkipped, syncStages, Stage.recorded, Stage.resolve,
      Stage.delete, Stage.commands, hroots, w, plan, Recording.fresh]
  · -- both texts name the destination
    rintro ⟨rest, hrest, h⟩
    have hsame : Path.lexical "/projects/api/" = Path.lexical "/projects/api" := by decide
    rw [hsame] at h
    exact hrest (by simpa using h)

end ComponentSync
