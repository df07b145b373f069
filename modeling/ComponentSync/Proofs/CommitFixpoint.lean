import ComponentSync.Proofs.IndexRoundTrip
import ComponentSync.Proofs.IgnoredContent

/-! # Committing a scan is a fixpoint of scanning

A save writes the index to its temporary file and renames it over the index. On a file system
shaped as a real one, where neither the tool's directory, the index nor its temporary file is a
link, the save changes nothing but the tool's directory, keeps the file system proper, and keeps
every directory the root leads to. The rules that keep the built-in ones ignore the tool's
directory, so the next scan lists what the first one listed; it loads the committed index back
(`load_save`), finds every file's size and time as recorded, and reports nothing. -/

namespace ComponentSync
open Workspace

theorem Path.tooLong_of_snoc {p : Path} (hp : p ≠ []) {c : String}
    (h : (p ++ [c]).tooLong = false) : p.tooLong = false := by
  have hlen : (p ++ [c]).render.utf8ByteSize = p.render.utf8ByteSize + 1 + c.utf8ByteSize := by
    simp only [Path.render, String.intercalate_append_of_ne_nil hp (List.cons_ne_nil c []),
      String.intercalate_singleton, String.utf8ByteSize_append]
    have hslash : "/".utf8ByteSize = 1 := by decide
    omega
  simp only [Path.tooLong, decide_eq_false_iff_not, gt_iff_lt, Nat.not_lt] at h ⊢
  omega

namespace Workspace

variable {ws : Workspace}

theorem Proper.put (hp : ws.Proper) {p : Path} (hne : p ≠ [])
    (hv : ∀ c ∈ p, Path.validName c = true)
    (hpar : ws.get? p.dropLast = some .dir) {n : Node} (hn : n = .dir ∨ ws.get? p ≠ some .dir) :
    (ws.put p n).Proper := by
  refine ⟨?_, ?_, hp.treeShaped.put hne hpar hn⟩
  · intro x hx
    simp only [Workspace.put, List.mem_cons, List.mem_filter] at hx
    rcases hx with rfl | ⟨hx, -⟩
    · exact hv
    · exact hp.wellNamed x hx
  · simp only [Workspace.put, List.map_cons, List.nodup_cons, List.mem_map, List.mem_filter,
      bne_iff_ne, ne_eq, not_exists, not_and]
    exact ⟨fun x hx => hx.2, hp.distinct.sublist (List.filter_sublist.map _)⟩

theorem TreeShaped.drop (h : ws.TreeShaped) (p : Path) : (ws.drop p).TreeShaped := by
  intro x hx hxne
  simp only [Workspace.drop, List.mem_filter, Bool.not_eq_true'] at hx
  have hnot : ¬ p <+: x.1 := fun hpx => by simp [List.isPrefixOf_iff_prefix.mpr hpx] at hx
  by_cases hpar : x.1.dropLast = []
  · simp [hpar, Node.isDir]
  rw [get?_drop hpar, if_neg (fun hpx => hnot (hpx.trans (List.dropLast_prefix _)))]
  exact h x hx.1 hxne

theorem Proper.drop (hp : ws.Proper) (p : Path) : (ws.drop p).Proper :=
  ⟨fun x hx => hp.wellNamed x (List.mem_filter.mp hx).1,
    hp.distinct.sublist (List.filter_sublist.map _), hp.treeShaped.drop p⟩

end Workspace

section Save

variable {ws : Workspace}

theorem rename_written_eq (hshape : ws.TreeShaped) {src dst s d : Path} {n : Node}
    (hlong : src.tooLong = false ∧ dst.tooLong = false)
    (hs : (ws.put s n).resolve src false = .ok s) (hd : (ws.put s n).resolve dst false = .ok d)
    (hsnil : s ≠ []) (hsdir : ws.get? s ≠ some .dir) (hnd : n.isDir = false)
    (hpar : (ws.put s n).get? d.dropLast = some .dir) (hdd : ws.get? d ≠ some .dir)
    (hsd : s ≠ d) :
    (ws.put s n).rename src dst = .ok ((((ws.put s n).drop s).drop d).put d n) := by
  have hnode : (ws.put s n).get? s = some n := by
    rw [get?_put hsnil]
    simp
  have hdd' : (ws.put s n).get? d ≠ some .dir := by
    rw [get?_put hsnil, if_neg (Ne.symm hsd)]
    exact hdd
  rw [rename_eq_ok hlong hs hd hnode hnd hpar hdd' hsd, moved_written hshape hsdir n d]
  have hkeep : ((((ws.put s n).drop s).drop d).nodes.filter (·.1 != d)) =
      (((ws.put s n).drop s).drop d).nodes := by
    rw [List.filter_eq_self]
    intro x hx
    simp only [Workspace.drop, List.mem_filter, Bool.not_eq_true'] at hx
    have hx' : ¬ d <+: x.1 := fun h => by simp [List.isPrefixOf_iff_prefix.mpr h] at hx
    simpa using fun h : x.1 = d => hx' (h ▸ List.prefix_refl d)
  rw [List.singleton_append]
  conv => rhs; rw [Workspace.put, hkeep]
  rfl

variable {root q : Path} {idx : FileIndex} {now : Time.Instant}

/-- A save that succeeds, when neither the tool's directory, the index nor its temporary file
is a link: the tool's directory is made where it was missing, the temporary file is written in
it and then moved over the index. -/
theorem save_eq (hshape : ws.TreeShaped) (h : ws.LeadsToDir root q)
    (hD : ∀ t m, ws.lstat (root ++ [toolDir]) ≠ .ok (.symlink t m))
    (hT : ∀ t m, ws.lstat (indexTempPath root) ≠ .ok (.symlink t m))
    (hI : ∀ t m, ws.lstat (indexPath root) ≠ .ok (.symlink t m))
    (hsave : (FileIndex.save ws root idx now).2 = .ok ()) :
    ∃ ws₁, ((ws₁ = ws ∧ ws.get? (q ++ [toolDir]) = some .dir) ∨
        (ws.get? (q ++ [toolDir]) = none ∧ ws₁ = ws.put (q ++ [toolDir]) .dir)) ∧
      (ws₁.get? (indexTempPath q)).any Node.leadsOn = false ∧
      (ws₁.get? (indexPath q)).any Node.leadsOn = false ∧
      (FileIndex.save ws root idx now).1 =
        (((ws₁.put (indexTempPath q) (.file idx.toJson.toUTF8 now)).drop (indexTempPath q)).drop
          (indexPath q)).put (indexPath q) (.file idx.toJson.toUTF8 now) := by
  unfold FileIndex.save at hsave ⊢
  simp only [indexPath_dropLast] at hsave ⊢
  rcases hall : ws.createDirAll (root ++ [toolDir]) with e₁ | ws₁
  · simp only [hall] at hsave
    cases hsave
  simp only [hall] at hsave ⊢
  obtain ⟨O, hO, hcase⟩ := createDirAll_leadsToDir h toolDir_plain hall
  have hshape₁ := hshape.toolDir h hcase
  rcases hw : ws₁.writeFile (indexTempPath root) idx.toJson.toUTF8 now with e₂ | ws₂
  · simp only [hw] at hsave
    cases hsave
  simp only [hw] at hsave ⊢
  obtain ⟨hlongT, X, hX, hXdir, -, rfl⟩ := writeFile_eq_ok hw
  have hlongI := indexPath_short hlongT
  have hlongD : (root ++ [toolDir]).tooLong = false :=
    Path.tooLong_of_snoc (by simp) (by rwa [indexTempPath_eq] at hlongT)
  -- the tool's directory is no link, so the path through it leads below the root's directory
  have hOq : O = q ++ [toolDir] := by
    rcases hcase with rfl | ⟨rfl, -, -⟩
    · have hlink : ∀ t m, ws₁.get? (q ++ [toolDir]) ≠ some (.symlink t m) := by
        intro t m hl
        apply hD t m
        rw [lstat_child h toolDir_plain hlongD, hl]
      have := resolve_child h toolDir_plain (b := true) (.inr hlink)
      rw [hO.1] at this
      cases this
      rfl
    · rfl
  subst hOq
  rw [indexTempPath_eq root] at hlongT hT hX hsave ⊢
  rw [indexPath_eq root] at hlongI hI hsave ⊢
  rw [indexTempPath_eq q, indexPath_eq q]
  have hTl := toolFile_not_link hshape hO hcase indexTempName_plain hlongT hT
  have hIl := toolFile_not_link hshape hO hcase indexName_plain hlongI hI
  -- the write went to the temporary file itself
  rw [resolve_child hO indexTempName_plain (.inr hTl)] at hX
  cases hX
  have hO₂ := hO.frame (leadsOn_put (leadsOn_eq_false hXdir hTl) (.file idx.toJson.toUTF8 now))
  have hs := resolve_child hO₂ indexTempName_plain (b := false) (.inl rfl)
  have hd := resolve_child hO₂ indexName_plain (b := false) (.inl rfl)
  have hpar : (ws₁.put (q ++ [toolDir] ++ ["odo-file-index.json.tmp"])
      (.file idx.toJson.toUTF8 now)).get? (q ++ [toolDir] ++ ["odo-file-index.json"]).dropLast =
      some .dir := by
    rw [List.dropLast_concat]
    exact hO₂.2
  by_cases hdd : ws₁.get? (q ++ [toolDir] ++ ["odo-file-index.json"]) = some .dir
  · -- the index is a directory: the rename fails
    have hnode : (ws₁.put (q ++ [toolDir] ++ ["odo-file-index.json.tmp"])
        (.file idx.toJson.toUTF8 now)).get? (q ++ [toolDir] ++ ["odo-file-index.json.tmp"]) =
        some (.file idx.toJson.toUTF8 now) := by
      rw [get?_put (by simp)]
      simp
    have hdd' : (ws₁.put (q ++ [toolDir] ++ ["odo-file-index.json.tmp"])
        (.file idx.toJson.toUTF8 now)).get? (q ++ [toolDir] ++ ["odo-file-index.json"]) =
        some .dir := by
      rw [get?_put (by simp), if_neg (by simp), hdd]
    simp only [rename_error_onto_dir ⟨hlongT, hlongI⟩ hs hd hnode rfl hpar hdd'] at hsave
    cases hsave
  refine ⟨ws₁, ?_, leadsOn_eq_false hXdir hTl, leadsOn_eq_false hdd hIl, ?_⟩
  · rcases hcase with rfl | ⟨-, hn, rfl⟩
    · exact .inl ⟨rfl, hO.2⟩
    · exact .inr ⟨hn, rfl⟩
  · rw [rename_written_eq hshape₁ ⟨hlongT, hlongI⟩ hs hd (by simp) hXdir rfl hpar hdd
      (by simp)]

theorem indexTempPath_ne_nil (q : Path) : indexTempPath q ≠ [] := by
  simp [indexTempPath]

theorem indexPath_ne_nil (q : Path) : indexPath q ≠ [] := by
  simp [indexPath]

theorem toolDir_made_get? {ws₁ : Workspace}
    (hcase : (ws₁ = ws ∧ ws.get? (q ++ [toolDir]) = some .dir) ∨
      (ws.get? (q ++ [toolDir]) = none ∧ ws₁ = ws.put (q ++ [toolDir]) .dir)) (p : Path) :
    ws₁.get? p = if p = q ++ [toolDir] then some .dir else ws.get? p := by
  rcases hcase with ⟨rfl, hdir⟩ | ⟨-, rfl⟩
  · split
    · next hp => rw [hp, hdir]
    · rfl
  · rw [get?_put (by simp)]

section Saved

variable (hshape : ws.TreeShaped) (h : ws.LeadsToDir root q)
  (hD : ∀ t m, ws.lstat (root ++ [toolDir]) ≠ .ok (.symlink t m))
  (hT : ∀ t m, ws.lstat (indexTempPath root) ≠ .ok (.symlink t m))
  (hI : ∀ t m, ws.lstat (indexPath root) ≠ .ok (.symlink t m))
  (hsave : (FileIndex.save ws root idx now).2 = .ok ())
include hshape h hD hT hI hsave

/-- What the file system a save leaves holds: the index file, nothing at or below the temporary
file, the tool's directory, and elsewhere what was there. -/
theorem save_get? {p : Path} (hp : p ≠ []) :
    (FileIndex.save ws root idx now).1.get? p =
      if p = indexPath q then some (.file idx.toJson.toUTF8 now)
      else if indexTempPath q <+: p ∨ indexPath q <+: p then none
      else if p = q ++ [toolDir] then some .dir else ws.get? p := by
  obtain ⟨ws₁, hcase, -, -, heq⟩ := save_eq hshape h hD hT hI hsave
  rw [heq, get?_put (indexPath_ne_nil q), get?_drop hp, get?_drop hp,
    get?_put (indexTempPath_ne_nil q), toolDir_made_get? hcase]
  by_cases hpI : p = indexPath q
  · simp [hpI]
  by_cases hIp : indexPath q <+: p
  · simp [hpI, hIp]
  by_cases hTp : indexTempPath q <+: p
  · simp [hpI, hIp, hTp]
  have hpT : p ≠ indexTempPath q := fun e => hTp (e ▸ List.prefix_refl _)
  simp [hpI, hIp, hTp, hpT]

/-- A save changes no directory and no link: a lookup that passed through the file system
before passes the same way after. -/
theorem save_keeps_leadsOn (p : Path) (hp : (ws.get? p).any Node.leadsOn = true) :
    (FileIndex.save ws root idx now).1.get? p = ws.get? p := by
  obtain ⟨ws₁, hcase, hTl, hIl, -⟩ := save_eq hshape h hD hT hI hsave
  by_cases hpnil : p = []
  · subst hpnil
    rfl
  have hT₀ : (ws.get? (indexTempPath q)).any Node.leadsOn = false := by
    rwa [toolDir_made_get? hcase, if_neg (by simp [indexTempPath])] at hTl
  have hI₀ : (ws.get? (indexPath q)).any Node.leadsOn = false := by
    rwa [toolDir_made_get? hcase, if_neg (by simp [indexPath])] at hIl
  rw [save_get? hshape h hD hT hI hsave hpnil]
  by_cases hpI : p = indexPath q
  · rw [hpI, hI₀] at hp
    cases hp
  rw [if_neg hpI, if_neg (not_or.mpr ⟨hshape.not_prefix hT₀ hp, hshape.not_prefix hI₀ hp⟩)]
  split
  · next hpD =>
    rcases hcase with ⟨-, hdir⟩ | ⟨hnone, -⟩
    · rw [hpD, hdir]
    · rw [hpD, hnone] at hp
      cases hp
  · rfl

theorem save_proper (hp : ws.Proper) : (FileIndex.save ws root idx now).1.Proper := by
  obtain ⟨ws₁, hcase, hTl, hIl, heq⟩ := save_eq hshape h hD hT hI hsave
  have hvD : ∀ c ∈ q ++ [toolDir], Path.validName c = true :=
    List.forall_mem_append.mpr ⟨hp.validName_of_get? h.2, List.forall_mem_singleton.mpr (by decide)⟩
  have hvT : ∀ c ∈ indexTempPath q, Path.validName c = true := by
    rw [indexTempPath_eq]
    exact List.forall_mem_append.mpr ⟨hvD, List.forall_mem_singleton.mpr (by decide)⟩
  have hvI : ∀ c ∈ indexPath q, Path.validName c = true := by
    rw [indexPath_eq]
    exact List.forall_mem_append.mpr ⟨hvD, List.forall_mem_singleton.mpr (by decide)⟩
  have hD₁ : ws₁.get? (q ++ [toolDir]) = some .dir := by
    rw [toolDir_made_get? hcase, if_pos rfl]
  have hp₁ : ws₁.Proper := by
    rcases hcase with ⟨rfl, -⟩ | ⟨-, rfl⟩
    · exact hp
    · exact hp.put (by simp) hvD (by simp [h.2]) (.inl rfl)
  have hp₂ := hp₁.put (indexTempPath_ne_nil q) hvT (by simp [indexTempPath, hD₁])
    (n := .file idx.toJson.toUTF8 now) (.inr fun hd => by simp [hd, Node.leadsOn] at hTl)
  have hDk : ((((ws₁.put (indexTempPath q) (.file idx.toJson.toUTF8 now)).drop
      (indexTempPath q)).drop (indexPath q))).get? (q ++ [toolDir]) = some .dir := by
    rw [get?_drop (by simp), if_neg (by simp [indexPath]), get?_drop (by simp),
      if_neg (by simp [indexTempPath]), get?_put (indexTempPath_ne_nil q),
      if_neg (by simp [indexTempPath]), hD₁]
  rw [heq]
  exact ((hp₂.drop _).drop _).put (indexPath_ne_nil q) hvI (by simpa [indexPath] using hDk)
    (.inr (by rw [get?_drop (indexPath_ne_nil q), if_pos (List.prefix_refl _)]; simp))

end Saved

end Save

/-! ### A scan against its own snapshot -/

namespace SortedMap

variable {α : Type}

theorem ext_of_sorted {m₁ m₂ : SortedMap α} (h₁ : m₁.keys.Pairwise (· < ·))
    (h₂ : m₂.keys.Pairwise (· < ·))
    (h : ∀ k v, m₁.get? k = some v ↔ m₂.get? k = some v) :
    m₁ = m₂ := by
  obtain ⟨es₁⟩ := m₁
  obtain ⟨es₂⟩ := m₂
  have hsorted : ∀ {es : List (String × α)}, (SortedMap.keys ⟨es⟩).Pairwise (· < ·) →
      es.Pairwise (fun a b => a.1 < b.1) := fun hs => List.pairwise_map.mp hs
  congr 1
  refine List.eq_of_pairwise_of_mem_iff (r := fun a b => a.1 < b.1) (fun _ => lt_irrefl _)
    (fun _ _ _ => lt_trans) (hsorted h₁) (hsorted h₂) fun ⟨k, v⟩ => ?_
  rw [← get?_eq_some_iff h₁, ← get?_eq_some_iff h₂]
  exact h k v

end SortedMap

namespace Workspace

theorem Proper.key_unique {ws : Workspace} (hp : ws.Proper) {O : Path} {parts parts' : List String}
    {n n' : Node} (hne : parts ≠ []) (hget : ws.get? (O ++ parts) = some n)
    (hget' : ws.get? (O ++ parts') = some n')
    (hk : "/".intercalate parts = "/".intercalate parts') :
    parts = parts' ∧ n = n' := by
  have hv : ∀ c ∈ parts, Path.validName c = true := fun c hc =>
    hp.validName_of_get? hget c (List.mem_append_right _ hc)
  have hv' : ∀ c ∈ parts', Path.validName c = true := fun c hc =>
    hp.validName_of_get? hget' c (List.mem_append_right _ hc)
  have hne' : parts' ≠ [] := by
    rintro rfl
    have hpieces := Path.pieces_intercalate hne hv
    rw [hk, show "/".intercalate ([] : List String) = "" from rfl,
      show Path.pieces "" = [""] from rfl] at hpieces
    have := hv "" (by rw [← hpieces]; simp)
    simp [Path.validName] at this
  have heq := Path.intercalate_inj hne hne' hv hv' hk
  subst heq
  rw [hget] at hget'
  exact ⟨rfl, Option.some.inj hget'⟩

end Workspace

section OwnSnapshot

variable {ws : Workspace} {root O : Path} {rules : RuleSet} {previous : FileIndex}
  {now : Time.Instant} {s : Scan}

/-- Each key a scan records names one node below the directory its root leads to: the one with
that entry's size and time. -/
theorem ScanReport.node_of_mem (hp : ws.Proper) (R : ScanReport ws root O rules previous s)
    {k : String} {e : FileEntry} (he : s.snapshot.get? k = some e) :
    ∃ parts n, parts ≠ [] ∧ ws.get? (O ++ parts) = some n ∧ n.isDir = false ∧
      rules.isIgnored ("/".intercalate parts) = false ∧ k = "/".intercalate parts ∧
      e.size = n.size ∧ e.modified = n.mtime := by
  obtain ⟨parts, n, hne, hget, hdir, hkeep, rfl⟩ :=
    (R.keys k).mp (FileIndex.mem_paths.mpr (by simp [he]))
  obtain ⟨parts', n', hk, hget', -, hsize, hmod, -⟩ := R.entries _ e he
  obtain ⟨rfl, rfl⟩ := hp.key_unique hne hget hget' hk
  exact ⟨parts, n, hne, hget, hdir, hkeep, rfl, hsize, hmod⟩

/-- Conversely, each file a scan keeps below the directory its root leads to has an entry with
its size and time. -/
theorem ScanReport.entry_of_node (hp : ws.Proper) (R : ScanReport ws root O rules previous s)
    {parts : List String} {n : Node} (hne : parts ≠ []) (hget : ws.get? (O ++ parts) = some n)
    (hdir : n.isDir = false) (hkeep : rules.isIgnored ("/".intercalate parts) = false) :
    ∃ e, s.snapshot.get? ("/".intercalate parts) = some e ∧ e.size = n.size ∧
      e.modified = n.mtime := by
  obtain ⟨e, he⟩ := Option.isSome_iff_exists.mp
    (FileIndex.mem_paths.mp ((R.keys _).mpr ⟨parts, n, hne, hget, hdir, hkeep, rfl⟩))
  obtain ⟨parts', n', hne', hget', -, -, hk, hsize, hmod⟩ := R.node_of_mem hp he
  obtain ⟨-, rfl⟩ := hp.key_unique hne' hget' hget hk.symm
  exact ⟨e, he, hsize, hmod⟩

/-- A second scan against the index the first one recorded finds each entry the first one
found: the same node, and the digest taken over. -/
theorem ScanReport.get?_of_rescan (hp : ws.Proper) (R : ScanReport ws root O rules previous s)
    {t : Time.Instant} {s' : Scan}
    (R' : ScanReport ws root O rules { s.snapshot with syncedAt := t } s')
    {k : String} {v : FileEntry} (hv : s'.snapshot.get? k = some v) :
    s.snapshot.get? k = some v := by
  have hget : ∀ k, ({ s.snapshot with syncedAt := t } : FileIndex).get? k = s.snapshot.get? k :=
    fun _ => rfl
  obtain ⟨parts, n, hne, hgetn, hdir, hkeep, rfl, hsize, hmod⟩ := R'.node_of_mem hp hv
  obtain ⟨e, he, hesize, hemod⟩ := R.entry_of_node hp hne hgetn hdir hkeep
  obtain ⟨parts₂, n₂, hk₂, hget₂, -, -, -, hdig⟩ := R'.entries _ v hv
  obtain ⟨-, rfl⟩ := hp.key_unique hne hgetn hget₂ hk₂
  rcases hdig with ⟨old, hold, -, -, hd⟩ | ⟨hnot, -⟩
  · rw [hget, he] at hold
    cases hold
    rw [he]
    obtain ⟨d, sz, md⟩ := v
    obtain ⟨d', sz', md'⟩ := e
    simp_all
  · exact absurd ⟨e, by rw [hget, he], hesize, hemod⟩ hnot

/-- A tree scanned again against the index its scan recorded, at any time: the scan succeeds,
takes every digest over from the index, reports nothing changed or deleted, and records the same
files. -/
theorem scanAgainst_own_snapshot (hp : ws.Proper) (hsorted : previous.paths.Pairwise (· < ·))
    (hs : scanAgainst ws root rules previous now = .ok s) (t now' : Time.Instant) :
    ∃ s', scanAgainst ws root rules { s.snapshot with syncedAt := t } now' = .ok s' ∧
      s'.changed = [] ∧ s'.deleted = [] ∧ s'.snapshot.files = s.snapshot.files := by
  obtain ⟨⟨es, hroot⟩, -⟩ := snapshot_eq_walk (scanAgainst_snapshot hs)
  obtain ⟨O, hO⟩ := Workspace.readDir_leadsToDir hroot
  have R := scanAgainst_report hp hsorted hO hs
  have hget : ∀ k, ({ s.snapshot with syncedAt := t } : FileIndex).get? k = s.snapshot.get? k :=
    fun _ => rfl
  -- the scan against the index reads what the first one read, and hashes nothing
  obtain ⟨O', hO', hread⟩ := (snapshot_ok_iff hp).mp ⟨_, scanAgainst_snapshot hs⟩
  obtain rfl : O' = O := by
    have := hO'.1
    rw [hO.1] at this
    cases this
    rfl
  have hread' : ScanReadable ws root O' rules { s.snapshot with syncedAt := t } :=
    ⟨hread.listsRoot, hread.listsDirs, fun parts n hne hgetn hdir hkeep =>
      ⟨(hread.findsFiles parts n hne hgetn hdir hkeep).1, fun hnot => absurd
        (R.entry_of_node hp hne hgetn hdir hkeep)
        (by simpa [FileIndex.Reuses, hget] using hnot)⟩⟩
  obtain ⟨snap, hsnap⟩ : ∃ snap,
      snapshot ws root rules { s.snapshot with syncedAt := t } now' = .ok snap :=
    (snapshot_ok_iff hp).mpr ⟨O', hO', hread'⟩
  obtain ⟨s', hs'⟩ : ∃ s', scanAgainst ws root rules { s.snapshot with syncedAt := t } now' =
      .ok s' := by
    simp only [scanAgainst, hsnap, bind, Except.bind, pure, Except.pure]
    exact ⟨_, rfl⟩
  have hsorted' : ({ s.snapshot with syncedAt := t } : FileIndex).paths.Pairwise (· < ·) :=
    R.sorted
  have R' := scanAgainst_report hp hsorted' hO' hs'
  have hkeys : ∀ k, k ∈ s'.snapshot.paths ↔ k ∈ s.snapshot.paths := fun k =>
    (R'.keys k).trans (R.keys k).symm
  -- both scans record the same keys, and each entry of the second is the first's
  have hfiles : s'.snapshot.files = s.snapshot.files := by
    refine SortedMap.ext_of_sorted R'.sorted R.sorted fun k v =>
      ⟨fun hv => R.get?_of_rescan hp R' hv, fun hv => ?_⟩
    replace hv : s.snapshot.get? k = some v := hv
    obtain ⟨v', hv'⟩ := Option.isSome_iff_exists.mp
      (FileIndex.mem_paths.mp ((hkeys k).mpr (FileIndex.mem_paths.mpr (by simp [hv]))))
    have := R.get?_of_rescan hp R' hv'
    rw [hv] at this
    cases this
    exact hv'
  refine ⟨s', hs', List.eq_nil_iff_forall_not_mem.mpr fun k hk => ?_,
    List.eq_nil_iff_forall_not_mem.mpr fun k hk => ?_, hfiles⟩
  · obtain ⟨e, he, hne⟩ := (R'.mem_changed k).mp hk
    rw [hget, R.get?_of_rescan hp R' he] at hne
    exact hne rfl
  · obtain ⟨hin, hout, -⟩ := (R'.mem_deleted k).mp hk
    exact hout ((hkeys k).mpr hin)

end OwnSnapshot

/-! ### Committing a scan -/

section Commit

variable {ws : Workspace} {root O : Path} {rules : RuleSet} {now now' now'' : Time.Instant}
  {s : Scan}

/-- The index a scan commits is well-formed when the files it records have sizes that fit in
64 bits and times in the usable years, and the commit's own time is well-formed. -/
theorem committed_wellFormed (hp : ws.Proper) {previous : FileIndex}
    (R : ScanReport ws root O rules previous s)
    (hfiles : ∀ p n, ws.get? p = some n → n.size ≤ Json.u64Max ∧ n.mtime.WellFormed)
    (hnow : now'.WellFormed) : ({ s.snapshot with syncedAt := now' } : FileIndex).WellFormed := by
  refine ⟨hnow, R.sorted, fun p hmem => ?_⟩
  have he : s.snapshot.get? p.1 = some p.2 := (SortedMap.get?_eq_some_iff R.sorted).mpr hmem
  obtain ⟨parts, n, -, hget, -, -, -, hsize, hmod⟩ := R.node_of_mem hp he
  obtain ⟨hn, hmn⟩ := hfiles _ n hget
  exact ⟨hsize ▸ hn, hmod ▸ hmn⟩

/-- Below the directory the root leads to, a save changes nothing the rules keep: everything it
touches is under the tool's directory, which they ignore. -/
theorem save_kept_agree (hp : ws.Proper) (hrules : rules.KeepsBuiltins) {idx : FileIndex}
    (h : ws.LeadsToDir root O)
    (hD : ∀ t m, ws.lstat (root ++ [toolDir]) ≠ .ok (.symlink t m))
    (hT : ∀ t m, ws.lstat (indexTempPath root) ≠ .ok (.symlink t m))
    (hI : ∀ t m, ws.lstat (indexPath root) ≠ .ok (.symlink t m))
    (hsave : (FileIndex.save ws root idx now).2 = .ok ()) (parts : List String)
    (hkeep : rules.isIgnored ("/".intercalate parts) = false) :
    (FileIndex.save ws root idx now).1.get? (O ++ parts) = ws.get? (O ++ parts) := by
  have hp' := save_proper hp.treeShaped h hD hT hI hsave hp
  by_cases hunder : [toolDir] <+: parts
  · -- a node under the tool's directory has a key the rules ignore
    obtain ⟨rest, rfl⟩ := hunder
    have hnone : ∀ {T : Workspace}, T.Proper → T.get? (O ++ ([toolDir] ++ rest)) = none := by
      intro T hT'
      cases hget : T.get? (O ++ ([toolDir] ++ rest)) with
      | none => rfl
      | some n =>
        have hv := hT'.validName_of_get? hget
        have hign : rules.isIgnored ("/".intercalate (toolDir :: rest)) = true :=
          hrules.ignores_toolDir fun c hc => hv c (by simp [hc])
        rw [List.singleton_append] at hkeep
        rw [hign] at hkeep
        cases hkeep
    rw [hnone hp', hnone hp]
  · by_cases hnil : O ++ parts = []
    · rw [hnil]
      rfl
    rw [save_get? hp.treeShaped h hD hT hI hsave hnil]
    -- the paths a save touches all start with the tool's directory
    have hD' : ¬ O ++ [toolDir] <+: O ++ parts := fun hpre =>
      hunder ((List.prefix_append_right_inj O).mp hpre)
    have hT' : ¬ indexTempPath O <+: O ++ parts := fun hpre =>
      hD' ((List.prefix_append _ _).trans (by simpa [indexTempPath] using hpre))
    have hI' : ¬ indexPath O <+: O ++ parts := fun hpre =>
      hD' ((List.prefix_append _ _).trans (by simpa [indexPath] using hpre))
    have hne : O ++ parts ≠ indexPath O := fun heq => hI' (heq ▸ List.prefix_refl _)
    have hneD : O ++ parts ≠ O ++ [toolDir] := fun heq => hD' (heq ▸ List.prefix_refl _)
    rw [if_neg hne, if_neg (not_or.mpr ⟨hT', hI'⟩), if_neg hneD]

/-- Committing a scan is a fixpoint of scanning. On a file system shaped as a real one, whose
files have sizes that fit in 64 bits and times in the usable years, with rules that keep the
built-in ones, and where neither the tool's directory, the index nor its temporary file is a
link: after a scan that succeeds and a commit of it, at a well-formed time, that succeeds, a
second scan of the file system the commit leaves, at any time, reports nothing changed and
nothing deleted and records the files committed. -/
theorem commit_is_scan_fixpoint (hp : ws.Proper) (hrules : rules.KeepsBuiltins)
    (hfiles : ∀ p n, ws.get? p = some n → n.size ≤ Json.u64Max ∧ n.mtime.WellFormed)
    (hnow : now'.WellFormed)
    (hD : ∀ t m, ws.lstat (root ++ [toolDir]) ≠ .ok (.symlink t m))
    (hT : ∀ t m, ws.lstat (indexTempPath root) ≠ .ok (.symlink t m))
    (hI : ∀ t m, ws.lstat (indexPath root) ≠ .ok (.symlink t m))
    (hscan : scan ws root rules now = .ok s) (hcommit : (s.commit ws root now').2 = .ok ()) :
    ∃ s', scan (s.commit ws root now').1 root rules now'' = .ok s' ∧
      s'.changed = [] ∧ s'.deleted = [] ∧ s'.snapshot.files = s.snapshot.files := by
  obtain ⟨previous, hload, -, hs⟩ := scan_against hscan
  have hsorted := FileIndex.load_sorted hload
  obtain ⟨⟨es, hroot⟩, -⟩ := snapshot_eq_walk (scanAgainst_snapshot hs)
  obtain ⟨O, hO⟩ := Workspace.readDir_leadsToDir hroot
  have R := scanAgainst_report hp hsorted hO hs
  -- the commit saves the snapshot, stamped with its time, and the next scan loads it back
  have hwf : ({ s.snapshot with syncedAt := now' } : FileIndex).WellFormed :=
    committed_wellFormed hp R hfiles hnow
  have hload' : FileIndex.load (s.commit ws root now').1 root now'' =
      .ok { s.snapshot with syncedAt := now' } :=
    load_save hwf hp.treeShaped hO hT hI hcommit
  -- the files it keeps are those of the file system scanned first
  have hp' := save_proper hp.treeShaped hO hD hT hI hcommit hp
  have hO' : (s.commit ws root now').1.LeadsToDir root O :=
    hO.frame (save_keeps_leadsOn hp.treeShaped hO hD hT hI hcommit)
  have hsnap : snapshot (s.commit ws root now').1 root rules { s.snapshot with syncedAt := now' }
      now'' = snapshot ws root rules { s.snapshot with syncedAt := now' } now'' :=
    snapshot_agree hp' hp hO' hO
      (fun parts hkeep => save_kept_agree hp hrules hO hD hT hI hcommit parts hkeep)
      (fun _ _ => rfl)
  obtain ⟨s', hs', hchanged, hdeleted, hsame⟩ :=
    scanAgainst_own_snapshot hp hsorted hs now' now''
  refine ⟨s', ?_, hchanged, hdeleted, hsame⟩
  unfold scan scanAgainst
  rw [hload', ← hs']
  simp only [bind, Except.bind, hsnap, scanAgainst]

end Commit

/-- One file, scanned with the built-in rules and committed: the next scan finds it unchanged. -/
theorem commit_is_scan_fixpoint_one_file :
    let ws : Workspace := ⟨[(["a.txt"], .file "a".toUTF8 ⟨9, 0⟩)], .ext4⟩
    ∃ s, scan ws [] RuleSet.builtin ⟨9, 0⟩ = .ok s ∧ s.changed = ["a.txt"] ∧
      (s.commit ws [] ⟨10, 0⟩).2 = .ok () ∧
      ∃ s', scan (s.commit ws [] ⟨10, 0⟩).1 [] RuleSet.builtin ⟨11, 0⟩ = .ok s' ∧
        s'.changed = [] ∧ s'.deleted = [] ∧ s'.snapshot.files = s.snapshot.files := by
  intro ws
  have hload : FileIndex.load ws [] ⟨9, 0⟩ = .ok (FileIndex.empty ⟨9, 0⟩) := rfl
  have htop : Path.tooLong [] = false := by decide
  have hdir : ws.readDir [] = .ok [("a.txt", .file "a".toUTF8 ⟨9, 0⟩)] := by
    simp only [Workspace.readDir, Workspace.resolve_nil, htop]
    simp [ws, bind, Except.bind, pure, Except.pure]
  have hla : ws.lstat ["a.txt"] = .ok (.file "a".toUTF8 ⟨9, 0⟩) := rfl
  have hra : ws.readFile ["a.txt"] = .ok "a".toUTF8 := rfl
  have hsize : "a".utf8ByteSize = 1 := by decide
  have hkeep : RuleSet.builtin.isIgnored "a.txt" = false :=
    RuleSet.builtin_keeps_name (by decide) (by decide) (by decide)
  have hscan : scan ws [] RuleSet.builtin ⟨9, 0⟩ = .ok ⟨["a.txt"], [],
      ⟨⟨9, 0⟩, ⟨[("a.txt", ⟨Digest.sha256Hex "a".toUTF8, 1, ⟨9, 0⟩⟩)]⟩⟩⟩ := by
    simp [scan, hload, scanAgainst, snapshot, walkFrom, hdir, hkeep, fingerprint,
      fingerprint.fresh, hla, hra, bind, Except.bind, pure, Except.pure,
      Except.map, Node.isDir, Node.size, Node.mtime, FileIndex.insert, FileIndex.get?,
      FileIndex.empty, FileIndex.paths, SortedMap.insert, SortedMap.insertList, SortedMap.get?,
      SortedMap.empty, SortedMap.keys, SortedMap.contains, hsize]
  have hcommit : ((⟨["a.txt"], [], ⟨⟨9, 0⟩, ⟨[("a.txt", ⟨Digest.sha256Hex "a".toUTF8, 1,
      ⟨9, 0⟩⟩)]⟩⟩⟩ : Scan).commit ws [] ⟨10, 0⟩).2 = .ok () := rfl
  have hp : ws.Proper := ⟨by decide, by decide, by decide⟩
  have hfiles : ∀ p n, ws.get? p = some n → n.size ≤ Json.u64Max ∧ n.mtime.WellFormed := by
    intro p n hget
    rcases mem_of_get?_eq_some hget with ⟨-, rfl⟩ | hmem
    · exact ⟨by decide, by decide⟩
    · obtain ⟨-, rfl⟩ := List.mem_singleton.mp hmem |> Prod.mk.inj
      exact ⟨by decide, by decide⟩
  have hD : ∀ t m, ws.lstat ([] ++ [toolDir]) ≠ .ok (.symlink t m) := fun t m h => by
    rw [(rfl : ws.lstat ([] ++ [toolDir]) = .error .notFound)] at h
    cases h
  have hT : ∀ t m, ws.lstat (indexTempPath []) ≠ .ok (.symlink t m) := fun t m h => by
    rw [(rfl : ws.lstat (indexTempPath []) = .error .notFound)] at h
    cases h
  have hI : ∀ t m, ws.lstat (indexPath []) ≠ .ok (.symlink t m) := fun t m h => by
    rw [(rfl : ws.lstat (indexPath []) = .error .notFound)] at h
    cases h
  exact ⟨_, hscan, rfl, hcommit, commit_is_scan_fixpoint hp RuleSet.keepsBuiltins_builtin hfiles
    (by decide) hD hT hI hscan hcommit⟩

/-- A temporary index file that links to the index breaks the fixpoint. The commit reports
success, but its write follows the link and its rename puts the link over the index, which then
leads to itself; the next scan finds no index, starts from an empty one and reports the file it
committed as changed. -/
theorem linked_temp_commit_rescans_file :
    let ws : Workspace := ⟨[([".odo"], .dir),
      ([".odo", "odo-file-index.json.tmp"], .symlink "odo-file-index.json" ⟨0, 0⟩),
      (["a.txt"], .file "a".toUTF8 ⟨0, 0⟩)], .ext4⟩
    ∃ s, scan ws [] RuleSet.builtin ⟨0, 0⟩ = .ok s ∧ s.changed = ["a.txt"] ∧
      (s.commit ws [] ⟨0, 0⟩).2 = .ok () ∧
      ∃ s', scan (s.commit ws [] ⟨0, 0⟩).1 [] RuleSet.builtin ⟨0, 0⟩ = .ok s' ∧
        s'.changed = ["a.txt"] := by
  intro ws
  have hload : FileIndex.load ws [] ⟨0, 0⟩ = .ok (FileIndex.empty ⟨0, 0⟩) := rfl
  have htop : Path.tooLong [] = false := by decide
  have hodo : RuleSet.builtin.isIgnored ".odo" = true := by
    simpa [toolDir] using RuleSet.builtin_ignores_toolDir
  have hkeep : RuleSet.builtin.isIgnored "a.txt" = false :=
    RuleSet.builtin_keeps_name (by decide) (by decide) (by decide)
  have hsize : "a".utf8ByteSize = 1 := by decide
  have hdir : ws.readDir [] = .ok [(".odo", .dir), ("a.txt", .file "a".toUTF8 ⟨0, 0⟩)] := by
    simp only [Workspace.readDir, Workspace.resolve_nil, htop]
    simp [ws, bind, Except.bind, pure, Except.pure]
    exact List.mergeSort_of_pairwise (by simp)
  have hla : ws.lstat ["a.txt"] = .ok (.file "a".toUTF8 ⟨0, 0⟩) := rfl
  have hra : ws.readFile ["a.txt"] = .ok "a".toUTF8 := rfl
  let s : Scan :=
    ⟨["a.txt"], [], ⟨⟨0, 0⟩, ⟨[("a.txt", ⟨Digest.sha256Hex "a".toUTF8, 1, ⟨0, 0⟩⟩)]⟩⟩⟩
  have hscan : scan ws [] RuleSet.builtin ⟨0, 0⟩ = .ok s := by
    simp [s, scan, hload, scanAgainst, snapshot, walkFrom, hdir, hodo, hkeep, fingerprint,
      fingerprint.fresh, hla, hra, bind, Except.bind, pure, Except.pure,
      Except.map, Node.isDir, Node.size, Node.mtime, FileIndex.insert, FileIndex.get?,
      FileIndex.empty, FileIndex.paths, SortedMap.insert, SortedMap.insertList, SortedMap.get?,
      SortedMap.empty, SortedMap.keys, SortedMap.contains, hsize]
  let saved : Workspace :=
    ⟨[([".odo", "odo-file-index.json"], .symlink "odo-file-index.json" ⟨0, 0⟩),
      ([".odo"], .dir), (["a.txt"], .file "a".toUTF8 ⟨0, 0⟩)], .ext4⟩
  have hrel : "odo-file-index.json".startsWith "/" = false := by
    rw [String.startsWith_string_eq_false_iff]
    rintro ⟨u, hu⟩
    have hhead : "odo-file-index.json".toList.head? = some 'o' := by decide
    rw [← hu, show "/".toList = ['/'] from rfl] at hhead
    simp at hhead
  have hpieces : Path.pieces "odo-file-index.json" = ["odo-file-index.json"] := by decide
  have htdir : Path.tooLong [".odo"] = false := by decide
  have htemp : Path.tooLong [".odo", "odo-file-index.json.tmp"] = false := by decide
  have hindex : Path.tooLong [".odo", "odo-file-index.json"] = false := by decide
  have hcommit : s.commit ws [] ⟨0, 0⟩ = (saved, .ok ()) := by
    simp [Scan.commit, ws, saved, FileIndex.save, indexPath, indexTempPath, toolDir, createDirAll,
      createDirAll.go, createDir, writeFile, rename, resolve, resolve.go, get?, hrel, hpieces,
      maxLinks, htdir, htemp, hindex, Node.isDir, throw, throwThe, MonadExceptOf.throw, bind,
      Except.bind, pure, Except.pure, put, drop, isDir, stat, List.isPrefixOf]
  have hO : saved.LeadsToDir [".odo"] [".odo"] := ⟨rfl, rfl⟩
  have hlink : saved.get? ([".odo"] ++ ["odo-file-index.json"]) =
      some (.symlink "odo-file-index.json" ⟨0, 0⟩) := rfl
  obtain ⟨fuel, links, -, hgo⟩ := resolve_append hO true
    (by simp : ["odo-file-index.json"] ≠ [])
  have hres : saved.resolve [".odo", "odo-file-index.json"] true = .error .loop := by
    rw [show [".odo", "odo-file-index.json"] = [".odo"] ++ ["odo-file-index.json"] from rfl, hgo]
    exact go_self_link indexName_plain hlink hpieces hrel (fuel + 1) links
  have hload' : FileIndex.load saved [] ⟨0, 0⟩ = .ok (FileIndex.empty ⟨0, 0⟩) := by
    simp [FileIndex.load, exists?, stat, indexPath, toolDir, hindex, hres, bind, Except.bind]
  have hdir' : saved.readDir [] = .ok [(".odo", .dir), ("a.txt", .file "a".toUTF8 ⟨0, 0⟩)] := by
    simp only [Workspace.readDir, Workspace.resolve_nil, htop]
    simp [saved, bind, Except.bind, pure, Except.pure]
    exact List.mergeSort_of_pairwise (by simp)
  have hla' : saved.lstat ["a.txt"] = .ok (.file "a".toUTF8 ⟨0, 0⟩) := rfl
  have hra' : saved.readFile ["a.txt"] = .ok "a".toUTF8 := rfl
  have hscan' : scan saved [] RuleSet.builtin ⟨0, 0⟩ = .ok s := by
    simp [s, scan, hload', scanAgainst, snapshot, walkFrom, hdir', hodo, hkeep, fingerprint,
      fingerprint.fresh, hla', hra', bind, Except.bind, pure, Except.pure,
      Except.map, Node.isDir, Node.size, Node.mtime, FileIndex.insert, FileIndex.get?,
      FileIndex.empty, FileIndex.paths, SortedMap.insert, SortedMap.insertList, SortedMap.get?,
      SortedMap.empty, SortedMap.keys, SortedMap.contains, hsize]
  refine ⟨s, hscan, rfl, by rw [hcommit], s, ?_, rfl⟩
  rw [hcommit]
  exact hscan'

end ComponentSync
