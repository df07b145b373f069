import ComponentSync.Proofs.Lookup
import ComponentSync.Proofs.PushRun
import ComponentSync.Target.Recording
/-! Where a push leaves its index. A save makes the index's directory, writes a temporary file
and renames it over the index. On a file system shaped as a tree, a save that fails has
changed at most the directory it made, so what is at the index path stays as it was; a save
that succeeds leaves the index's bytes there, unless the temporary file or the index is a
link, which the write follows and the rename replaces (`readFile_moved`, for any file saved
so in the tool directory). A push commits its scan only when it changed the target, and
nothing before the commit touches the files. -/
namespace ComponentSync

open Workspace

theorem indexPath_eq (root : Path) :
    indexPath root = (root ++ [toolDir]) ++ ["odo-file-index.json"] := by
  simp [indexPath]

theorem indexTempPath_eq (root : Path) :
    indexTempPath root = (root ++ [toolDir]) ++ ["odo-file-index.json.tmp"] := by
  simp [indexTempPath]

theorem String.intercalate_append_last (s x y : String) :
    ∀ l : List String, s.intercalate (l ++ [x ++ y]) = s.intercalate (l ++ [x]) ++ y
  | [] => by simp
  | [a] => by simp [String.intercalate_cons_cons, String.append_assoc]
  | a :: b :: l => by
    simp only [List.cons_append, String.intercalate_cons_cons]
    rw [← List.cons_append, String.intercalate_append_last s x y (b :: l), List.cons_append]
    simp only [String.append_assoc]

theorem indexTempPath_render (root : Path) :
    (indexTempPath root).render = (indexPath root).render ++ ".tmp" := by
  unfold indexTempPath indexPath Path.render
  rw [show "odo-file-index.json.tmp" = "odo-file-index.json" ++ ".tmp" from rfl,
    show root ++ [toolDir, "odo-file-index.json" ++ ".tmp"] =
      (root ++ [toolDir]) ++ ["odo-file-index.json" ++ ".tmp"] by simp,
    String.intercalate_append_last]
  simp [String.append_assoc]

theorem indexPath_short {root : Path} (h : (indexTempPath root).tooLong = false) :
    (indexPath root).tooLong = false := by
  simp only [Path.tooLong, indexTempPath_render, String.utf8ByteSize_append, decide_eq_false_iff_not,
    gt_iff_lt, Nat.not_lt] at h ⊢
  omega

theorem toolDir_plain : toolDir ≠ "" ∧ toolDir ≠ "." ∧ toolDir ≠ ".." := by decide

theorem indexName_plain :
    "odo-file-index.json" ≠ "" ∧ "odo-file-index.json" ≠ "." ∧ "odo-file-index.json" ≠ ".." := by
  decide

theorem indexTempName_plain : "odo-file-index.json.tmp" ≠ "" ∧ "odo-file-index.json.tmp" ≠ "." ∧
    "odo-file-index.json.tmp" ≠ ".." := by
  decide

section ToolDir

variable {ws ws' : Workspace} {root q : Path}

theorem lstat_child {P O : Path} (h : ws.LeadsToDir P O) {c : String}
    (hc : c ≠ "" ∧ c ≠ "." ∧ c ≠ "..") (hlong : (P ++ [c]).tooLong = false) :
    ws.lstat (P ++ [c]) =
      match ws.get? (O ++ [c]) with
      | some n => .ok n
      | none => .error .notFound := by
  unfold lstat
  simp only [hlong, Bool.false_eq_true, if_false, resolve_child h hc (.inl rfl), bind,
    Except.bind]
  cases ws.get? (O ++ [c]) <;> rfl

theorem stat_child {P O : Path} (h : ws.LeadsToDir P O) {c : String}
    (hc : c ≠ "" ∧ c ≠ "." ∧ c ≠ "..") (hlink : ∀ t m, ws.get? (O ++ [c]) ≠ some (.symlink t m)) :
    ws.stat (P ++ [c]) =
      if (P ++ [c]).tooLong then .error .nameTooLong
      else match ws.get? (O ++ [c]) with
        | some n => .ok n
        | none => .error .notFound := by
  unfold stat
  cases hlong : (P ++ [c]).tooLong
  · simp only [Bool.false_eq_true, if_false, resolve_child h hc (.inr hlink), bind, Except.bind]
    cases ws.get? (O ++ [c]) <;> rfl
  · rfl

theorem createDir_child (h : ws.LeadsToDir root q) {c : String}
    (hc : c ≠ "" ∧ c ≠ "." ∧ c ≠ "..") (hlong : (root ++ [c]).tooLong = false) :
    ws.createDir (root ++ [c]) =
      match ws.get? (q ++ [c]) with
      | some _ => .error .alreadyExists
      | none => .ok (ws.put (q ++ [c]) .dir) := by
  unfold createDir
  simp only [hlong, Bool.false_eq_true, if_false, resolve_child h hc (.inl rfl)]
  rcases hn : ws.get? (q ++ [c]) with _ | n
  · simp [bind, Except.bind, hn, h.2, pure, Except.pure]
  · simp [bind, Except.bind, hn, throw, throwThe, MonadExceptOf.throw]

/-- Making a directory and its parents, where the parent exists: the file system is unchanged
and the path is a directory, or the directory is new. -/
theorem createDirAll_child (h : ws.LeadsToDir root q) {c : String}
    (hc : c ≠ "" ∧ c ≠ "." ∧ c ≠ "..") (hall : ws.createDirAll (root ++ [c]) = .ok ws') :
    (ws' = ws ∧ ws.isDir (root ++ [c]) = true) ∨
      (ws.get? (q ++ [c]) = none ∧ ws' = ws.put (q ++ [c]) .dir) := by
  unfold createDirAll at hall
  rw [List.length_append, List.length_singleton, createDirAll.go.eq_2] at hall
  have hne : (root ++ [c]).isEmpty = false := by simp
  simp only [hne, Bool.false_eq_true, if_false] at hall
  -- an existing path, or one too long to make, is accepted when it is a directory already
  have existing : ∀ e, e ≠ .notFound → ws.createDir (root ++ [c]) = .error e →
      ws' = ws ∧ ws.isDir (root ++ [c]) = true := by
    intro e he hdir
    split at hall
    · next hok =>
      rw [hdir] at hok
      cases hok
    · next hmissing =>
      rw [hdir] at hmissing
      cases hmissing
      exact absurd rfl he
    · split at hall
      · cases hall
        exact ⟨rfl, ‹_›⟩
      · cases hall
  by_cases hlong : (root ++ [c]).tooLong = true
  · left
    refine existing .nameTooLong (by decide) ?_
    simp [createDir, hlong, throw, throwThe, MonadExceptOf.throw, bind, Except.bind]
  · rw [Bool.not_eq_true] at hlong
    rcases hn : ws.get? (q ++ [c]) with _ | n
    · right
      rw [createDir_child h hc hlong, hn] at hall
      cases hall
      exact ⟨rfl, rfl⟩
    · left
      refine existing .alreadyExists (by decide) ?_
      rw [createDir_child h hc hlong, hn]

/-- After making the directory and its parents, the path leads to a directory: the one that
was there, or the new one. -/
theorem createDirAll_leadsToDir (h : ws.LeadsToDir root q) {c : String}
    (hc : c ≠ "" ∧ c ≠ "." ∧ c ≠ "..") (hall : ws.createDirAll (root ++ [c]) = .ok ws') :
    ∃ O, ws'.LeadsToDir (root ++ [c]) O ∧
      (ws' = ws ∨ (O = q ++ [c] ∧ ws.get? O = none ∧ ws' = ws.put O .dir)) := by
  rcases createDirAll_child h hc hall with ⟨rfl, hdir⟩ | ⟨hn, rfl⟩
  · obtain ⟨O, hO⟩ := isDir_leadsToDir hdir
    exact ⟨O, hO, .inl rfl⟩
  · exact ⟨q ++ [c], h.mkdir hc hn, .inr ⟨rfl, hn, rfl⟩⟩

theorem writeFile_eq_ok {p : Path} {bytes : ByteArray} {now : Time.Instant}
    (h : ws.writeFile p bytes now = .ok ws') :
    p.tooLong = false ∧ ∃ X, ws.resolve p true = .ok X ∧ ws.get? X ≠ some .dir ∧
      ws.get? X.dropLast = some .dir ∧ ws' = ws.put X (.file bytes now) := by
  unfold writeFile at h
  split at h
  · cases h
  · next hlong =>
    obtain ⟨X, hX, h⟩ := Except.bind_eq_ok h
    refine ⟨Bool.eq_false_iff.mpr hlong, X, hX, ?_⟩
    split at h
    · cases h
    · cases h
    · next hnotdir _ =>
      split at h
      · cases h
        exact ⟨hnotdir, ‹_›, rfl⟩
      · cases h
      · cases h

theorem rename_eq_ok {src dst s d : Path} {node : Node}
    (hlong : src.tooLong = false ∧ dst.tooLong = false)
    (hs : ws.resolve src false = .ok s) (hd : ws.resolve dst false = .ok d)
    (hnode : ws.get? s = some node) (hnd : node.isDir = false)
    (hpar : ws.get? d.dropLast = some .dir) (hdd : ws.get? d ≠ some .dir) (hsd : s ≠ d) :
    ws.rename src dst = .ok ⟨(ws.nodes.filterMap fun (r, n) =>
      if s.isPrefixOf r then some (d ++ r.drop s.length, n) else none) ++ ((ws.drop s).drop d).nodes,
      ws.stamps⟩ := by
  unfold rename
  rcases hdn : ws.get? d with _ | n
  · simp [hlong, hs, hd, hnode, hpar, hdn, hsd, bind, Except.bind, pure, Except.pure]
  · have hn : n ≠ .dir := fun hn => hdd (hdn ▸ hn ▸ rfl)
    cases n <;> simp_all [bind, Except.bind, pure, Except.pure]

/-- A rename of a node just written where no directory stood moves that node alone: nothing
lies below it. -/
theorem moved_written (hshape : ws.TreeShaped) {s : Path} (hsdir : ws.get? s ≠ some .dir)
    (n : Node) (d : Path) :
    ((ws.put s n).nodes.filterMap fun (r, m) =>
      if s.isPrefixOf r then some (d ++ r.drop s.length, m) else none) = [(d, n)] := by
  simp only [put, List.filterMap_cons, List.isPrefixOf_iff_prefix.mpr (List.prefix_refl s),
    if_true, List.drop_length, List.append_nil, List.cons.injEq, true_and]
  rw [List.filterMap_eq_nil_iff]
  rintro ⟨r, m⟩ hr
  simp only [List.mem_filter, bne_iff_ne, ne_eq] at hr
  have hnot : ¬ s <+: r := fun hsr => hr.2 (hshape.nothing_below hsdir hr.1 hsr)
  simp [List.isPrefixOf_iff_prefix, hnot]

/-- Moving a node just written to a path where no directory stood: the node is found at the
new path, nothing is left at the old one or below either, and all else is as before. -/
theorem rename_written (hshape : ws.TreeShaped) {s d : Path} (hs : s ≠ [])
    (hsdir : ws.get? s ≠ some .dir) (n : Node) {p : Path} (hp : p ≠ []) :
    (⟨((ws.put s n).nodes.filterMap fun (r, m) =>
        if s.isPrefixOf r then some (d ++ r.drop s.length, m) else none) ++
      (((ws.put s n).drop s).drop d).nodes, ws.stamps⟩ : Workspace).get? p =
      if d = p then some n else if d <+: p ∨ s <+: p then none else ws.get? p := by
  rw [moved_written hshape hsdir n d, List.singleton_append, get?_cons hp]
  split
  · rfl
  · show (((ws.put s n).drop s).drop d).get? p = _
    rw [get?_drop hp, get?_drop hp, get?_put hs]
    by_cases hdp : d <+: p
    · simp [hdp]
    · by_cases hsp : s <+: p
      · simp [hdp, hsp]
      · have : p ≠ s := fun h => hsp (h ▸ List.prefix_refl s)
        simp [hdp, hsp, this]

theorem rename_error_onto_dir {src dst s d : Path} {node : Node}
    (hlong : src.tooLong = false ∧ dst.tooLong = false)
    (hs : ws.resolve src false = .ok s) (hd : ws.resolve dst false = .ok d)
    (hnode : ws.get? s = some node) (hnd : node.isDir = false)
    (hpar : ws.get? d.dropLast = some .dir) (hdd : ws.get? d = some .dir) :
    ws.rename src dst = .error .isDirectory := by
  unfold rename
  simp [hlong, hs, hd, hnode, hnd, hpar, hdd, bind, Except.bind, pure, Except.pure, throw,
    throwThe, MonadExceptOf.throw]

theorem rename_written_ok (hshape : ws.TreeShaped) {src dst s d : Path} {n : Node}
    (hlong : src.tooLong = false ∧ dst.tooLong = false)
    (hs : (ws.put s n).resolve src false = .ok s) (hd : (ws.put s n).resolve dst false = .ok d)
    (hsnil : s ≠ []) (hsdir : ws.get? s ≠ some .dir) (hnd : n.isDir = false)
    (hpar : (ws.put s n).get? d.dropLast = some .dir) (hdd : ws.get? d ≠ some .dir)
    (hsd : s ≠ d) :
    ∃ ws', (ws.put s n).rename src dst = .ok ws' ∧ ∀ p, p ≠ [] →
      ws'.get? p = if d = p then some n else if d <+: p ∨ s <+: p then none else ws.get? p := by
  have hnode : (ws.put s n).get? s = some n := by
    rw [get?_put hsnil]
    simp
  have hdd' : (ws.put s n).get? d ≠ some .dir := by
    rw [get?_put hsnil, if_neg (Ne.symm hsd)]
    exact hdd
  exact ⟨_, rename_eq_ok hlong hs hd hnode hnd hpar hdd' hsd,
    fun p hp => rename_written hshape hsnil hsdir n hp⟩

theorem rename_short {src dst : Path} (h : ws.rename src dst = .ok ws') : dst.tooLong = false := by
  unfold rename at h
  cases hd : dst.tooLong
  · rfl
  · simp [hd, throw, throwThe, MonadExceptOf.throw, bind, Except.bind] at h

end ToolDir

/-! ### Saving the index -/

section Save

variable {ws ws₁ ws₂ : Workspace} {root q O : Path} {idx prev : FileIndex} {now now' : Time.Instant}

theorem indexPath_dropLast (root : Path) : (indexPath root).dropLast = root ++ [toolDir] := by
  simp [indexPath]

theorem load_index_not_dir (hload : FileIndex.load ws root now' = .ok prev)
    (hO : ws.LeadsToDir (root ++ [toolDir]) O) (hlong : (indexPath root).tooLong = false) :
    ws.get? (O ++ ["odo-file-index.json"]) ≠ some .dir := by
  intro hdir
  have hstat : ws.stat (indexPath root) = .ok .dir := by
    rw [indexPath_eq, stat_child hO indexName_plain (fun t m => by simp [hdir]), ← indexPath_eq,
      hlong, hdir]
    rfl
  simp [FileIndex.load, exists?, readText, readFile, hstat, bind, Except.bind, throw, throwThe,
    MonadExceptOf.throw] at hload

theorem toolFile_not_link (hshape : ws.TreeShaped)
    (hO : ws₁.LeadsToDir (root ++ [toolDir]) O)
    (hcase : ws₁ = ws ∨ (O = q ++ [toolDir] ∧ ws.get? O = none ∧ ws₁ = ws.put O .dir))
    {c : String} (hc : c ≠ "" ∧ c ≠ "." ∧ c ≠ "..") (hlong : (root ++ [toolDir] ++ [c]).tooLong = false)
    (hl : ∀ t m, ws.lstat (root ++ [toolDir] ++ [c]) ≠ .ok (.symlink t m)) :
    ∀ t m, ws₁.get? (O ++ [c]) ≠ some (.symlink t m) := by
  rcases hcase with rfl | ⟨rfl, hn, rfl⟩
  · intro t m hlink
    apply hl t m
    rw [lstat_child hO hc hlong, hlink]
  · -- a new directory is empty
    intro t m
    rw [get?_put (by simp), if_neg (by simp), hshape.child_none (by simp [hn]) c]
    simp

theorem Workspace.TreeShaped.toolDir (hshape : ws.TreeShaped) (h : ws.LeadsToDir root q)
    (hcase : ws₁ = ws ∨ (O = q ++ [toolDir] ∧ ws.get? O = none ∧ ws₁ = ws.put O .dir)) :
    ws₁.TreeShaped := by
  rcases hcase with rfl | ⟨rfl, -, rfl⟩
  · exact hshape
  · exact hshape.put (by simp) (by simp [h.2]) (.inl rfl)

/-- Once the temporary file is written, moving it over the index succeeds when the index is
no directory. -/
theorem rename_temp_ok (hshape : ws₁.TreeShaped) (hO : ws₁.LeadsToDir (root ++ [toolDir]) O)
    (hidx : ws₁.get? (O ++ ["odo-file-index.json"]) ≠ some .dir) {bytes : ByteArray}
    (hw : ws₁.writeFile (indexTempPath root) bytes now = .ok ws₂) :
    ∃ ws₃, ws₂.rename (indexTempPath root) (indexPath root) = .ok ws₃ := by
  obtain ⟨hlong, X, hX, hXdir, -, rfl⟩ := writeFile_eq_ok hw
  have hXnil : X ≠ [] := by
    rintro rfl
    simp at hXdir
  have hXleads := leadsOn_eq_false hXdir (resolve_follow_not_link hshape hX)
  have hO₂ := hO.frame (leadsOn_put hXleads (.file bytes now))
  have hs := resolve_child hO₂ indexTempName_plain (b := false) (.inl rfl)
  have hd := resolve_child hO₂ indexName_plain (b := false) (.inl rfl)
  -- the temporary path names a node that is no directory: the file just written, or the link
  -- the write went through
  obtain ⟨node, hnode, hnd⟩ : ∃ node, (ws₁.put X (.file bytes now)).get?
      (O ++ ["odo-file-index.json.tmp"]) = some node ∧ node.isDir = false := by
    by_cases hXT : X = O ++ ["odo-file-index.json.tmp"]
    · subst hXT
      exact ⟨.file bytes now, by rw [get?_put hXnil]; simp, rfl⟩
    · rw [get?_put hXnil, if_neg (Ne.symm hXT)]
      -- the write went elsewhere only through a link at the temporary path
      by_cases hlink : ∀ t m, ws₁.get? (O ++ ["odo-file-index.json.tmp"]) ≠ some (.symlink t m)
      · have := resolve_child hO indexTempName_plain (b := true) (.inr hlink)
        rw [← indexTempPath_eq, hX] at this
        cases this
        exact absurd rfl hXT
      · simp only [Classical.not_forall, Classical.not_not] at hlink
        obtain ⟨t, m, hl⟩ := hlink
        exact ⟨_, hl, rfl⟩
  have hpar : (ws₁.put X (.file bytes now)).get? (O ++ ["odo-file-index.json"]).dropLast =
      some .dir := by
    rw [List.dropLast_concat]
    exact hO₂.2
  have hdd : (ws₁.put X (.file bytes now)).get? (O ++ ["odo-file-index.json"]) ≠ some .dir := by
    rw [get?_put hXnil]
    split
    · simp
    · exact hidx
  have hlongI := indexPath_short hlong
  rw [indexTempPath_eq] at hlong ⊢
  rw [indexPath_eq] at hlongI ⊢
  exact ⟨_, rename_eq_ok ⟨hlong, hlongI⟩ hs hd hnode hnd hpar hdd (by simp)⟩

theorem stat_index_mkdir (hshape : ws.TreeShaped) (h : ws.LeadsToDir root q)
    (hn : ws.get? (q ++ [toolDir]) = none) :
    (ws.put (q ++ [toolDir]) .dir).stat (indexPath root) = ws.stat (indexPath root) := by
  have hnone : (ws.put (q ++ [toolDir]) .dir).get? (q ++ [toolDir] ++ ["odo-file-index.json"]) =
      none := by
    rw [get?_put (by simp), if_neg (by simp), hshape.child_none (by simp [hn])]
  rw [indexPath_eq, stat_child (h.mkdir toolDir_plain hn) indexName_plain
    (fun t m hl => by rw [hnone] at hl; cases hl), hnone]
  unfold stat
  rw [show root ++ [toolDir] ++ ["odo-file-index.json"] = root ++ [toolDir, "odo-file-index.json"]
    by simp, resolve_through_missing h toolDir_plain hn]
  cases (root ++ [toolDir, "odo-file-index.json"]).tooLong <;> rfl

theorem load_congr {ws' : Workspace}
    (h : ws'.stat (indexPath root) = ws.stat (indexPath root)) (now : Time.Instant) :
    FileIndex.load ws' root now = FileIndex.load ws root now := by
  unfold FileIndex.load exists? readText readFile
  dsimp only
  rw [h]

/-- A save that fails leaves the file system as it was, or with the directory of the index
newly made, when the index it would replace loaded. -/
theorem save_error_cases (hshape : ws.TreeShaped) (h : ws.LeadsToDir root q)
    (hload : FileIndex.load ws root now' = .ok prev) {e : SyncError}
    (hsave : (FileIndex.save ws root idx now).2 = .error e) :
    (FileIndex.save ws root idx now).1 = ws ∨
      (ws.get? (q ++ [toolDir]) = none ∧
        (FileIndex.save ws root idx now).1 = ws.put (q ++ [toolDir]) .dir) := by
  unfold FileIndex.save at hsave ⊢
  simp only [indexPath_dropLast] at hsave ⊢
  rcases hall : ws.createDirAll (root ++ [toolDir]) with e₁ | ws₁
  · exact .inl rfl
  simp only [hall] at hsave ⊢
  obtain ⟨O, hO, hcase⟩ := createDirAll_leadsToDir h toolDir_plain hall
  rcases hw : ws₁.writeFile (indexTempPath root) idx.toJson.toUTF8 now with e₂ | ws₂
  · -- the write failed: only the directory may be new
    simp only
    rcases hcase with rfl | ⟨rfl, hn, rfl⟩
    · exact .inl rfl
    · exact .inr ⟨hn, rfl⟩
  · -- the write succeeded, and then so does the rename
    exfalso
    have hidx : ws₁.get? (O ++ ["odo-file-index.json"]) ≠ some .dir := by
      rcases hcase with rfl | ⟨rfl, hn, rfl⟩
      · exact load_index_not_dir hload hO (indexPath_short (writeFile_eq_ok hw).1)
      · rw [get?_put (by simp), if_neg (by simp), hshape.child_none (by simp [hn])]
        simp
    obtain ⟨ws₃, hr⟩ := rename_temp_ok (hshape.toolDir h hcase) hO hidx hw
    simp only [hw, hr] at hsave
    cases hsave

/-- A file written beside its place in the tool directory and moved into place holds the bytes
written, when neither name is a link. -/
theorem readFile_moved {ws₃ : Workspace} {bytes : ByteArray} (hshape : ws.TreeShaped)
    (h : ws.LeadsToDir root q) {name tmp : String}
    (hn : name ≠ "" ∧ name ≠ "." ∧ name ≠ "..") (ht : tmp ≠ "" ∧ tmp ≠ "." ∧ tmp ≠ "..")
    (hne : tmp ≠ name)
    (hT : ∀ t m, ws.lstat (root ++ [toolDir] ++ [tmp]) ≠ .ok (.symlink t m))
    (hI : ∀ t m, ws.lstat (root ++ [toolDir] ++ [name]) ≠ .ok (.symlink t m))
    (hall : ws.createDirAll (root ++ [toolDir]) = .ok ws₁)
    (hw : ws₁.writeFile (root ++ [toolDir] ++ [tmp]) bytes now = .ok ws₂)
    (hr : ws₂.rename (root ++ [toolDir] ++ [tmp]) (root ++ [toolDir] ++ [name]) = .ok ws₃) :
    ws₃.readFile (root ++ [toolDir] ++ [name]) = .ok bytes := by
  obtain ⟨O, hO, hcase⟩ := createDirAll_leadsToDir h toolDir_plain hall
  have hshape₁ := hshape.toolDir h hcase
  have hlongI := rename_short hr
  obtain ⟨hlongT, X, hX, hXdir, -, rfl⟩ := writeFile_eq_ok hw
  have hTl := toolFile_not_link hshape hO hcase ht hlongT hT
  have hIl := toolFile_not_link hshape hO hcase hn hlongI hI
  -- the write went to the temporary file itself
  rw [resolve_child hO ht (.inr hTl)] at hX
  cases hX
  have hO₂ := hO.frame (leadsOn_put (leadsOn_eq_false hXdir hTl) (.file bytes now))
  have hs := resolve_child hO₂ ht (b := false) (.inl rfl)
  have hd := resolve_child hO₂ hn (b := false) (.inl rfl)
  have hpar : (ws₁.put (O ++ [tmp]) (.file bytes now)).get? (O ++ [name]).dropLast = some .dir := by
    rw [List.dropLast_concat]
    exact hO₂.2
  have hTI : O ++ [tmp] ≠ O ++ [name] := by simp [hne]
  by_cases hdd : ws₁.get? (O ++ [name]) = some .dir
  · -- a directory in place of the file: the move fails
    have hnode : (ws₁.put (O ++ [tmp]) (.file bytes now)).get? (O ++ [tmp]) =
        some (.file bytes now) := by
      rw [get?_put (by simp)]
      simp
    have hdd' : (ws₁.put (O ++ [tmp]) (.file bytes now)).get? (O ++ [name]) = some .dir := by
      rw [get?_put (by simp), if_neg (Ne.symm hTI), hdd]
    rw [rename_error_onto_dir ⟨hlongT, hlongI⟩ hs hd hnode rfl hpar hdd'] at hr
    cases hr
  obtain ⟨ws₃', hr', hget⟩ := rename_written_ok hshape₁ ⟨hlongT, hlongI⟩ hs hd (by simp) hXdir rfl
    hpar hdd hTI
  rw [hr'] at hr
  cases hr
  -- the move changed nothing the lookup of the tool directory passes through
  have hIleads := leadsOn_eq_false hdd hIl
  have hagree : ∀ p, (ws₁.get? p).any Node.leadsOn = true → ws₃.get? p = ws₁.get? p := by
    intro p hp
    by_cases hpnil : p = []
    · simp [hpnil]
    have hIp : O ++ [name] ≠ p := by
      rintro rfl
      rw [hIleads] at hp
      cases hp
    rw [hget p hpnil, if_neg hIp, if_neg (not_or.mpr ⟨hshape₁.not_prefix hIleads hp,
      hshape₁.not_prefix (leadsOn_eq_false hXdir hTl) hp⟩)]
  have hI₃ : ws₃.get? (O ++ [name]) = some (.file bytes now) := by
    rw [hget _ (by simp)]
    simp
  unfold readFile
  rw [stat_child (hO.frame hagree) hn (by simp [hI₃]), hlongI, hI₃]
  rfl

/-- A save that succeeds leaves the index's bytes at the index path, when neither the index
nor its temporary file is a link. -/
theorem save_index (hshape : ws.TreeShaped) (h : ws.LeadsToDir root q)
    (hT : ∀ t m, ws.lstat (indexTempPath root) ≠ .ok (.symlink t m))
    (hI : ∀ t m, ws.lstat (indexPath root) ≠ .ok (.symlink t m))
    (hsave : (FileIndex.save ws root idx now).2 = .ok ()) :
    (FileIndex.save ws root idx now).1.readFile (indexPath root) = .ok idx.toJson.toUTF8 := by
  unfold FileIndex.save at hsave ⊢
  simp only [indexPath_dropLast] at hsave ⊢
  rcases hall : ws.createDirAll (root ++ [toolDir]) with e₁ | ws₁
  · simp only [hall] at hsave
    cases hsave
  simp only [hall] at hsave ⊢
  rcases hw : ws₁.writeFile (indexTempPath root) idx.toJson.toUTF8 now with e₂ | ws₂
  · simp only [hw] at hsave
    cases hsave
  simp only [hw] at hsave ⊢
  rcases hr : ws₂.rename (indexTempPath root) (indexPath root) with e₃ | ws₃
  · simp only [hr] at hsave
    cases hsave
  simp only
  rw [indexTempPath_eq] at hw hr hT
  rw [indexPath_eq] at hr hI ⊢
  exact readFile_moved hshape h indexName_plain indexTempName_plain (by decide) hT hI hall hw hr

end Save

/-! ### The files a push touches -/

section Frame

variable {σ α β : Type}

/-- A step that leaves the files and the clock as they are. -/
def PushM.KeepsFiles (m : PushM σ α) : Prop :=
  ∀ w, (PushM.exec m w).2.files = w.files ∧ (PushM.exec m w).2.now = w.now

namespace PushM.KeepsFiles

theorem pure (a : α) : PushM.KeepsFiles (pure a : PushM σ α) := fun _ => ⟨rfl, rfl⟩

theorem bind {m : PushM σ α} {f : α → PushM σ β} (hm : m.KeepsFiles)
    (hf : ∀ a, (f a).KeepsFiles) : (m >>= f).KeepsFiles := by
  intro w
  rw [PushM.exec_bind]
  obtain ⟨hfiles, hnow⟩ := hm w
  rcases hexec : PushM.exec m w with ⟨_ | a, w'⟩
  · rw [hexec] at hfiles hnow
    exact ⟨hfiles, hnow⟩
  · rw [hexec] at hfiles hnow
    obtain ⟨hfiles', hnow'⟩ := hf a w'
    exact ⟨hfiles'.trans hfiles, hnow'.trans hnow⟩

theorem onTarget (m : StateM σ α) : (onTarget m).KeepsFiles := fun _ => ⟨rfl, rfl⟩

theorem say (f : Console → Console) : (say f : PushM σ Unit).KeepsFiles := fun _ => ⟨rfl, rfl⟩

theorem orFail {ε : Type} (x : Except ε α) (f : ε → SyncError) :
    (orFail x f : PushM σ α).KeepsFiles := by
  intro w
  cases x
  · rw [exec_orFail_error]
    exact ⟨rfl, rfl⟩
  · rw [exec_orFail_ok]
    exact ⟨rfl, rfl⟩

theorem throw (e : SyncError) : (throw e : PushM σ α).KeepsFiles := fun _ => ⟨rfl, rfl⟩

theorem withStatus (msg : String) {step : PushM σ α} (h : step.KeepsFiles) :
    (withStatus msg step).KeepsFiles := by
  intro w
  rw [exec_withStatus]
  obtain ⟨hfiles, hnow⟩ := h { w with console := w.console.begin msg }
  rcases hexec : PushM.exec step { w with console := w.console.begin msg } with ⟨_ | a, w'⟩ <;>
    rw [hexec] at hfiles hnow <;> exact ⟨hfiles, hnow⟩

theorem get : (get : PushM σ (World σ)).KeepsFiles := fun _ => ⟨rfl, rfl⟩

theorem map {m : PushM σ α} (f : α → β) (h : m.KeepsFiles) : (f <$> m).KeepsFiles := by
  rw [map_eq_pure_bind]
  exact .bind h fun _ => .pure _

theorem discard {m : PushM σ α} (h : m.KeepsFiles) : (discard m).KeepsFiles := by
  show (Functor.mapConst PUnit.unit m).KeepsFiles
  rw [LawfulFunctor.map_const]
  exact .map _ h

end PushM.KeepsFiles

theorem keepsFiles_trigger (t : Target σ) (inst : Instance) (container : String)
    (argv : List String) (shown : Bool) : (trigger t inst container argv shown).KeepsFiles := by
  unfold trigger
  refine .bind (.onTarget _) fun ⟨chunks, ending⟩ => ?_
  dsimp only
  split
  · exact .bind (.say _) fun _ => .bind (.orFail _ _) fun _ => .pure _
  · exact .bind (.orFail _ _) fun _ => .pure _

theorem keepsFiles_transfer (t : Target σ) (inst : Instance) (target : SyncTarget) (root : Path)
    (files : List String) : (transfer t inst target root files).KeepsFiles := by
  unfold transfer
  refine .bind .get fun w => .bind (.onTarget _) fun taken => .bind (.orFail _ _) fun _ => ?_
  split
  · exact .throw _
  · exact .pure _

theorem keepsFiles_fullTree (root : Path) (rules : RuleSet) :
    (fullTree root rules : PushM σ (List String)).KeepsFiles := by
  intro w
  rw [exec_fullTree]
  exact ⟨rfl, rfl⟩

theorem keepsFiles_syncFiles (t : Target σ) (target : SyncTarget) (root : Path) (rules : RuleSet)
    (changed deleted : List String) (force : Bool) :
    (syncFiles t target root rules changed deleted force).KeepsFiles := by
  rw [syncFiles_eq]
  split
  · exact .pure _
  refine .withStatus _ (.bind ?_ fun inst => .bind ?_ fun removed => ?_)
  · exact .bind (.onTarget _) fun _ => .orFail _ _
  · unfold removeDeleted
    split
    · exact .pure _
    · exact .bind (.onTarget _) fun _ => .bind (.orFail _ _) fun _ => .pure _
  · split
    · exact .pure _
    · refine .bind ?_ fun _ => .pure _
      unfold sendChanged
      refine .bind ?_ fun files => .bind (keepsFiles_transfer _ _ _ _ _) fun _ => .pure _
      split
      · exact keepsFiles_fullTree root rules
      · exact .pure _

theorem keepsFiles_runTriggers (t : Target σ) (plan : PushPlan) (outcome : SyncOutcome) :
    (runTriggers t plan outcome).KeepsFiles := by
  unfold runTriggers
  split
  · exact .pure _
  dsimp only
  split
  all_goals refine .bind ?_ fun out => ?_
  · exact .pure _
  · split
    · exact .pure _
    · exact .bind (.discard (.withStatus _ (keepsFiles_trigger _ _ _ _ _))) fun _ => .pure _
  · exact .map _ (.withStatus _ (keepsFiles_trigger _ _ _ _ _))
  · split
    · exact .pure _
    · exact .bind (.discard (.withStatus _ (keepsFiles_trigger _ _ _ _ _))) fun _ => .pure _

theorem keepsFiles_changes (plan : PushPlan) :
    (plan.changes : PushM σ (Option Scan × List String × List String)).KeepsFiles := by
  intro w
  rw [exec_changes]
  exact ⟨rfl, rfl⟩

theorem keepsFiles_deliver (t : Target σ) (plan : PushPlan) : (deliver t plan).KeepsFiles :=
  .bind (keepsFiles_changes plan) fun ⟨_, _, _⟩ => .bind (keepsFiles_syncFiles _ _ _ _ _ _ _) fun _ =>
    .bind (keepsFiles_runTriggers _ _ _) fun _ => .pure _

end Frame

/-! ### A push and its index -/

section Push

variable {σ : Type}

theorem scan_ok_root {ws : Workspace} {root : Path} {rules : RuleSet} {now : Time.Instant}
    {s : Scan} (h : scan ws root rules now = .ok s) :
    (∃ q, ws.LeadsToDir root q) ∧ ∃ prev, FileIndex.load ws root now = .ok prev := by
  unfold scan at h
  obtain ⟨prev, hload, h⟩ := Except.bind_eq_ok h
  unfold scanAgainst at h
  obtain ⟨snap, hsnap, -⟩ := Except.bind_eq_ok h
  unfold snapshot at hsnap
  split at hsnap
  · cases hsnap
  · exact ⟨readDir_leadsToDir ‹_›, prev, hload⟩

theorem PushPlan.found_scanned {plan : PushPlan} {ws : Workspace} {now : Time.Instant} {s : Scan}
    {changed deleted : List String} (h : plan.found ws now = .ok (some s, changed, deleted)) :
    plan.files = none ∧ scan ws plan.sourceRoot plan.ignore now = .ok s := by
  unfold PushPlan.found at h
  split at h
  · cases h
  · next hfiles =>
    refine ⟨hfiles, ?_⟩
    cases hscan : scan ws plan.sourceRoot plan.ignore now with
    | error => simp [hscan, Except.map] at h
    | ok s' =>
      simp only [hscan, Except.map, Except.ok.injEq, Prod.mk.injEq, Option.some.injEq] at h
      rw [h.1]

theorem PushPlan.found_listed {plan : PushPlan} {files : List String} (h : plan.files = some files)
    (ws : Workspace) (now : Time.Instant) : plan.found ws now = .ok (none, files, []) := by
  simp [PushPlan.found, h]

theorem deliver_found {t : Target σ} {plan : PushPlan} {w w' : World σ} {scanned : Option Scan}
    {report : PushReport} (h : PushM.exec (deliver t plan) w = (.ok (scanned, report), w')) :
    plan.found w.files w.now = .ok (scanned, report.changed, report.deleted) := by
  unfold deliver at h
  obtain ⟨⟨scanned', changed, deleted⟩, w₁, h₁, h⟩ := PushM.exec_bind_ok h
  rw [exec_changes, Prod.mk.injEq] at h₁
  obtain ⟨outcome, w₂, -, h⟩ := PushM.exec_bind_ok h
  obtain ⟨out, w₃, -, h⟩ := PushM.exec_bind_ok h
  cases h
  exact h₁.1

/-- A push delivers, and then commits its scan when it changed the target; the commit works on
the files and the clock the push started with. -/
theorem exec_push (t : Target σ) (plan : PushPlan) (w : World σ) :
    PushM.exec (push t plan) w =
      match PushM.exec (deliver t plan) w with
      | (.ok (some s, report), w₁) =>
        if !report.outcome.isNoop then
          ((s.commit w.files plan.sourceRoot w.now).2.map fun _ => report,
            { w₁ with files := (s.commit w.files plan.sourceRoot w.now).1 })
        else (.ok report, w₁)
      | (.ok (none, report), w₁) => (.ok report, w₁)
      | (.error e, w₁) => (.error e, w₁) := by
  obtain ⟨hfiles, hnow⟩ := keepsFiles_deliver t plan w
  rw [push_eq, PushM.exec_bind]
  rcases hd : PushM.exec (deliver t plan) w with ⟨_ | ⟨_ | s, report⟩, w₁⟩
  · rfl
  · simp [recordScan]
  · rw [hd] at hfiles hnow
    simp only [recordScan]
    cases report.outcome.isNoop
    · simp only [Bool.not_false, if_true, PushM.exec_bind, exec_commitScan, ← hfiles, ← hnow]
      cases (s.commit w₁.files plan.sourceRoot w₁.now).2 <;> rfl
    · simp

variable {t : Target σ} {plan : PushPlan} {w : World σ} {report : PushReport}

theorem push_error_index (hshape : w.files.TreeShaped) {e : SyncError}
    (h : (PushM.exec (push t plan) w).1 = .error e) :
    (PushM.exec (push t plan) w).2.files.stat (indexPath plan.sourceRoot) =
      w.files.stat (indexPath plan.sourceRoot) := by
  obtain ⟨hfiles, -⟩ := keepsFiles_deliver t plan w
  rw [exec_push] at h ⊢
  rcases hd : PushM.exec (deliver t plan) w with ⟨_ | ⟨_ | s, report⟩, w₁⟩ <;>
    rw [hd] at h hfiles <;> simp only at h ⊢
  · rw [hfiles]
  · cases h
  obtain ⟨-, hscan⟩ := PushPlan.found_scanned (deliver_found hd)
  obtain ⟨⟨q, hq⟩, prev, hload⟩ := scan_ok_root hscan
  cases hnoop : report.outcome.isNoop <;> simp only [hnoop, Bool.not_false, Bool.not_true,
    if_true, Bool.false_eq_true, if_false] at h ⊢
  · rcases save_error_cases hshape hq hload (Except.map_eq_error h) with hsame | ⟨hn, hput⟩
    · unfold Scan.commit
      rw [hsame]
    · unfold Scan.commit
      rw [hput, stat_index_mkdir hshape hq hn]
  · cases h

theorem push_noop_files (h : (PushM.exec (push t plan) w).1 = .ok report)
    (hnoop : report.outcome.isNoop = true) : (PushM.exec (push t plan) w).2.files = w.files := by
  obtain ⟨hfiles, -⟩ := keepsFiles_deliver t plan w
  rw [exec_push] at h ⊢
  rcases hd : PushM.exec (deliver t plan) w with ⟨_ | ⟨_ | s, report'⟩, w₁⟩ <;>
    rw [hd] at h hfiles <;> simp only at h ⊢
  · exact hfiles
  · exact hfiles
  · cases hnoop' : report'.outcome.isNoop <;> simp only [hnoop', Bool.not_false, Bool.not_true,
      if_true, Bool.false_eq_true, if_false] at h ⊢
    · -- a commit follows only a push that changed the target
      obtain ⟨-, -, rfl⟩ := Except.map_eq_ok h
      rw [hnoop] at hnoop'
      cases hnoop'
    · exact hfiles

theorem push_listed_files {files : List String} (hfiles : plan.files = some files) :
    (PushM.exec (push t plan) w).2.files = w.files := by
  obtain ⟨hkeep, -⟩ := keepsFiles_deliver t plan w
  rw [exec_push]
  rcases hd : PushM.exec (deliver t plan) w with ⟨_ | ⟨_ | s, report'⟩, w₁⟩ <;>
    rw [hd] at hkeep <;> simp only
  · exact hkeep
  · exact hkeep
  · have := deliver_found hd
    rw [PushPlan.found_listed hfiles] at this
    simp at this

/-- A push that succeeded and changed the target leaves at the index path the bytes of its
scan's snapshot, stamped with the time of the push, when neither the index nor its temporary
file is a link. -/
theorem push_commit_index (hshape : w.files.TreeShaped) (hfiles : plan.files = none)
    (hT : ∀ t m, w.files.lstat (indexTempPath plan.sourceRoot) ≠ .ok (.symlink t m))
    (hI : ∀ t m, w.files.lstat (indexPath plan.sourceRoot) ≠ .ok (.symlink t m))
    (h : (PushM.exec (push t plan) w).1 = .ok report) (hnoop : report.outcome.isNoop = false) :
    ∃ s, scan w.files plan.sourceRoot plan.ignore w.now = .ok s ∧
      (PushM.exec (push t plan) w).2.files.readFile (indexPath plan.sourceRoot) =
        .ok ({ s.snapshot with syncedAt := w.now }.toJson.toUTF8) := by
  rw [exec_push] at h ⊢
  rcases hd : PushM.exec (deliver t plan) w with ⟨_ | ⟨_ | s, report'⟩, w₁⟩ <;>
    rw [hd] at h <;> simp only at h ⊢
  · cases h
  · -- a plan without a list scans
    have := deliver_found hd
    simp only [PushPlan.found, hfiles] at this
    cases hs : scan w.files plan.sourceRoot plan.ignore w.now <;> simp [hs, Except.map] at this
  obtain ⟨-, hscan⟩ := PushPlan.found_scanned (deliver_found hd)
  obtain ⟨⟨q, hq⟩, -⟩ := scan_ok_root hscan
  refine ⟨s, hscan, ?_⟩
  cases hnoop' : report'.outcome.isNoop <;> simp only [hnoop', Bool.not_false, Bool.not_true,
    if_true, Bool.false_eq_true, if_false] at h ⊢
  · obtain ⟨⟨⟩, hsave, -⟩ := Except.map_eq_ok h
    exact save_index hshape hq hT hI hsave
  · cases h
    rw [hnoop] at hnoop'
    cases hnoop'

/-- The index records a push only when the push succeeded and changed the target. A failed
push leaves what is at the index path as it was, so the next scan compares against the same
index; a push that succeeded writes the index exactly when it changed the target, with the
bytes of its scan's snapshot stamped with the time of the push, provided neither the index nor
its temporary file is a link; and a plan that lists its files neither reads nor writes it. -/
theorem push_index_discipline (t : Target σ) (plan : PushPlan) (w : World σ)
    (hshape : w.files.TreeShaped) :
    (∀ e, (PushM.exec (push t plan) w).1 = .error e →
      (PushM.exec (push t plan) w).2.files.stat (indexPath plan.sourceRoot) =
          w.files.stat (indexPath plan.sourceRoot) ∧
        ∀ now, FileIndex.load (PushM.exec (push t plan) w).2.files plan.sourceRoot now =
          FileIndex.load w.files plan.sourceRoot now) ∧
    (∀ report, (PushM.exec (push t plan) w).1 = .ok report →
      (report.outcome.isNoop = true → (PushM.exec (push t plan) w).2.files = w.files) ∧
      (report.outcome.isNoop = false → plan.files = none →
        (∀ t m, w.files.lstat (indexTempPath plan.sourceRoot) ≠ .ok (.symlink t m)) →
        (∀ t m, w.files.lstat (indexPath plan.sourceRoot) ≠ .ok (.symlink t m)) →
        ∃ s, scan w.files plan.sourceRoot plan.ignore w.now = .ok s ∧
          (PushM.exec (push t plan) w).2.files.readFile (indexPath plan.sourceRoot) =
            .ok ({ s.snapshot with syncedAt := w.now }.toJson.toUTF8))) ∧
    (∀ files, plan.files = some files →
      (PushM.exec (push t plan) w).2.files = w.files ∧
        ∀ ws now, plan.found ws now = .ok (none, files, [])) := by
  refine ⟨fun e h => ?_, fun report h => ⟨push_noop_files h, fun hnoop hfiles hT hI =>
    push_commit_index hshape hfiles hT hI h hnoop⟩, fun files hfiles =>
    ⟨push_listed_files hfiles, PushPlan.found_listed hfiles⟩⟩
  have hstat := push_error_index hshape h
  exact ⟨hstat, load_congr hstat⟩

end Push

/-- The index discipline at a one-file tree. -/
theorem push_index_discipline_one_file :
    let w : World Recording :=
      ⟨⟨[(["a.txt"], .file ByteArray.empty ⟨0, 0⟩)], .ext4⟩, Console.empty, Recording.fresh, ⟨0, 0⟩⟩
    let plan : PushPlan :=
      ⟨[], ⟨[]⟩, ⟨"app=api", "build", "/projects/api", []⟩, false, none, none, false, none⟩
    w.files.TreeShaped ∧
    (∀ e, (PushM.exec (push Recording.target plan) w).1 = .error e →
      (PushM.exec (push Recording.target plan) w).2.files.stat (indexPath plan.sourceRoot) =
          w.files.stat (indexPath plan.sourceRoot) ∧
        ∀ now, FileIndex.load (PushM.exec (push Recording.target plan) w).2.files
          plan.sourceRoot now = FileIndex.load w.files plan.sourceRoot now) ∧
    (∀ report, (PushM.exec (push Recording.target plan) w).1 = .ok report →
      (report.outcome.isNoop = true → (PushM.exec (push Recording.target plan) w).2.files =
        w.files) ∧
      (report.outcome.isNoop = false → plan.files = none →
        (∀ t m, w.files.lstat (indexTempPath plan.sourceRoot) ≠ .ok (.symlink t m)) →
        (∀ t m, w.files.lstat (indexPath plan.sourceRoot) ≠ .ok (.symlink t m)) →
        ∃ s, scan w.files plan.sourceRoot plan.ignore w.now = .ok s ∧
          (PushM.exec (push Recording.target plan) w).2.files.readFile
            (indexPath plan.sourceRoot) =
            .ok ({ s.snapshot with syncedAt := w.now }.toJson.toUTF8))) ∧
    (∀ files, plan.files = some files →
      (PushM.exec (push Recording.target plan) w).2.files = w.files ∧
        ∀ ws now, plan.found ws now = .ok (none, files, [])) := by
  intro w plan
  exact ⟨by decide, push_index_discipline Recording.target plan w (by decide)⟩

/-- A temporary index file that links to the index: the save reports success, but the index
is then the link itself, which leads nowhere. -/
theorem save_through_linked_temp_loses_index :
    let ws : Workspace := ⟨[([".odo"], .dir),
      ([".odo", "odo-file-index.json.tmp"], .symlink "odo-file-index.json" ⟨0, 0⟩)], .ext4⟩
    ws.TreeShaped ∧ (FileIndex.save ws [] (FileIndex.empty ⟨0, 0⟩) ⟨0, 0⟩).2 = .ok () ∧
      (FileIndex.save ws [] (FileIndex.empty ⟨0, 0⟩) ⟨0, 0⟩).1.readFile (indexPath []) =
        .error .loop := by
  intro ws
  have hrel : "odo-file-index.json".startsWith "/" = false := by
    rw [String.startsWith_string_eq_false_iff]
    rintro ⟨u, hu⟩
    have hhead : "odo-file-index.json".toList.head? = some 'o' := by decide
    rw [← hu, show "/".toList = ['/'] from rfl] at hhead
    simp at hhead
  have hpieces : Path.pieces "odo-file-index.json" = ["odo-file-index.json"] := by decide
  have hdir : Path.tooLong [".odo"] = false := by decide
  have htemp : Path.tooLong [".odo", "odo-file-index.json.tmp"] = false := by decide
  have hindex : Path.tooLong [".odo", "odo-file-index.json"] = false := by decide
  have hsave : FileIndex.save ws [] (FileIndex.empty ⟨0, 0⟩) ⟨0, 0⟩ =
      (⟨[([".odo", "odo-file-index.json"], .symlink "odo-file-index.json" ⟨0, 0⟩),
        ([".odo"], .dir)], .ext4⟩, .ok ()) := by
    simp [ws, FileIndex.save, indexPath, indexTempPath, toolDir, createDirAll, createDirAll.go,
      createDir, writeFile, rename, resolve, resolve.go, get?, hrel, hpieces, maxLinks, hdir,
      htemp, hindex, Node.isDir, throw, throwThe, MonadExceptOf.throw, bind, Except.bind, pure,
      Except.pure, put, drop, isDir, stat]
  refine ⟨by decide, by rw [hsave], ?_⟩
  rw [hsave]
  let saved : Workspace :=
    ⟨[([".odo", "odo-file-index.json"], .symlink "odo-file-index.json" ⟨0, 0⟩), ([".odo"], .dir)], .ext4⟩
  have hO : saved.LeadsToDir [".odo"] [".odo"] := ⟨rfl, rfl⟩
  have hlink : saved.get? ([".odo"] ++ ["odo-file-index.json"]) =
      some (.symlink "odo-file-index.json" ⟨0, 0⟩) := rfl
  obtain ⟨fuel, links, -, hgo⟩ := resolve_append hO true
    (by simp : ["odo-file-index.json"] ≠ [])
  have hres : saved.resolve [".odo", "odo-file-index.json"] true = .error .loop := by
    rw [show [".odo", "odo-file-index.json"] = [".odo"] ++ ["odo-file-index.json"] from rfl, hgo]
    exact go_self_link indexName_plain hlink hpieces hrel (fuel + 1) links
  simp [saved, readFile, stat, indexPath, toolDir, hindex, hres, bind, Except.bind]

end ComponentSync
