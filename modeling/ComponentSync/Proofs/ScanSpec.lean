import ComponentSync.Proofs.TreeWalk
/-! What a scan computes. On a file system shaped as a real one, a scan of a root that leads to
the directory `O` succeeds exactly when it can read what it must: the root, every directory
below `O` whose key the rules keep, and every other such entry, looked at without following a
link and hashed unless the index supplies its digest (`ScanReadable`). Its report is then the
tree read off directly (`ScanReport`): the snapshot holds one entry for each entry below `O`
that is not a directory and whose key the rules keep, with that entry's size and time and the
digest the index supplies or the content gives; the changed and deleted paths are the
snapshot's and the index's keys that differ, in increasing order. Main statement:
`scanAgainst_spec`. -/
namespace ComponentSync

/-! ### Digests a scan records -/

/-- The digest of what a node holds, when it can be read: a file's content, or the text
`symlink:` with a link's target. -/
def Node.contentDigest : Node → Option String
  | .file content _ => some (Digest.sha256Hex content)
  | .symlink target _ => some (linkDigest target)
  | .dir | .socket _ => none

/-- The index holds the size and modification time of a node for its key, so that a scan takes
the index's digest over instead of reading the node. -/
def FileIndex.Reuses (idx : FileIndex) (k : String) (n : Node) : Prop :=
  ∃ old, idx.get? k = some old ∧ old.size = n.size ∧ old.modified = n.mtime

/-- The digest a scan records for the node at key `k`: the index's, when the index holds the
node's size and time for `k`, and otherwise the digest of the node's content. -/
def FileIndex.ScanDigest (idx : FileIndex) (k : String) (n : Node) (d : String) : Prop :=
  (∃ old, idx.get? k = some old ∧ old.size = n.size ∧ old.modified = n.mtime ∧ d = old.digest) ∨
    (¬ idx.Reuses k n ∧ n.contentDigest = some d)

namespace FileIndex

theorem mem_paths_insert_self (idx : FileIndex) (k : String) (e : FileEntry) :
    k ∈ (idx.insert k e).paths := by
  rw [mem_paths]
  simp [insert, get?, SortedMap.get?_insert_self]

theorem mem_paths_insert_of_mem {idx : FileIndex} {k k' : String} (e : FileEntry)
    (h : k' ∈ idx.paths) : k' ∈ (idx.insert k e).paths := by
  simp only [paths, insert, SortedMap.keys, SortedMap.insert] at h ⊢
  generalize idx.files.entries = es at h ⊢
  induction es with
  | nil => simp at h
  | cons kv rest ih =>
    obtain ⟨k₀, v₀⟩ := kv
    simp only [List.map_cons, List.mem_cons] at h
    unfold SortedMap.insertList
    split
    · simp only [List.map_cons, List.mem_cons]
      exact .inr h
    · split
      · next hk =>
        subst hk
        rcases h with rfl | h
        · simp
        · exact List.mem_cons_of_mem _ h
      · rcases h with rfl | h
        · simp
        · exact List.mem_cons_of_mem _ (ih h)

end FileIndex

section Fingerprint

variable {ws : Workspace} {previous : FileIndex} {full : Path} {k : String} {n : Node}

/-- Hashing a node that `lstat` finds gives the digest of its content, and fails on a node
that holds none. -/
theorem fresh_eq_ok_iff (hl : ws.lstat full = .ok n) {d : String} :
    fingerprint.fresh ws full n = .ok d ↔ n.contentDigest = some d := by
  cases n with
  | symlink target t =>
    simp [fingerprint.fresh, Workspace.readLink, hl, Node.contentDigest, bind, Except.bind,
      pure, Except.pure, eq_comm]
  | file c t =>
    have hstat := Workspace.stat_of_lstat hl fun _ _ h => Node.noConfusion h
    simp [fingerprint.fresh, Workspace.readFile, hstat, Node.contentDigest, bind, Except.bind,
      pure, Except.pure, eq_comm]
  | dir =>
    have hstat := Workspace.stat_of_lstat hl fun _ _ h => Node.noConfusion h
    simp [fingerprint.fresh, Workspace.readFile, hstat, Node.contentDigest, bind, Except.bind,
      throw, throwThe, MonadExceptOf.throw]
  | socket t =>
    have hstat := Workspace.stat_of_lstat hl fun _ _ h => Node.noConfusion h
    simp [fingerprint.fresh, Workspace.readFile, hstat, Node.contentDigest, bind, Except.bind,
      throw, throwThe, MonadExceptOf.throw]

/-- An entry built from a digest computation is recorded exactly when the computation gives
a digest. -/
theorem map_entry_eq_ok {ε : Type} {x : Except ε String} {P : String → Prop}
    (hx : ∀ d, x = .ok d ↔ P d) {s : Nat} {t : Time.Instant} {e : FileEntry} :
    x.map (fun d => some (⟨d, s, t⟩ : FileEntry)) = .ok (some e) ↔
      e.size = s ∧ e.modified = t ∧ P e.digest := by
  cases x with
  | error err =>
    constructor
    · intro h
      cases h
    · rintro ⟨-, -, hP⟩
      cases (hx e.digest).mpr hP
  | ok d =>
    have hd : ∀ d', P d' ↔ d = d' := fun d' => by
      rw [← hx d']
      exact ⟨fun h => by cases h; rfl, fun h => by rw [h]⟩
    obtain ⟨digest, size, modified⟩ := e
    simp only [Except.map, Except.ok.injEq, Option.some.injEq, FileEntry.mk.injEq, hd]
    constructor
    · rintro ⟨rfl, rfl, rfl⟩
      exact ⟨rfl, rfl, rfl⟩
    · rintro ⟨rfl, rfl, rfl⟩
      exact ⟨rfl, rfl, rfl⟩

/-- The entry a fingerprint records for a node that `lstat` finds: the node's size and time,
with the digest the index supplies or the content gives. -/
theorem fingerprint_eq_ok_iff (hl : ws.lstat full = .ok n) {e : FileEntry} :
    fingerprint ws full k previous = .ok (some e) ↔
      e.size = n.size ∧ e.modified = n.mtime ∧ previous.ScanDigest k n e.digest := by
  unfold fingerprint
  rw [hl]
  refine map_entry_eq_ok fun d => ?_
  have hfresh := fresh_eq_ok_iff hl (d := d)
  cases hold : previous.get? k with
  | none =>
    simp [FileIndex.ScanDigest, FileIndex.Reuses, hold, hfresh]
  | some old =>
    by_cases hsame : old.size = n.size ∧ old.modified = n.mtime
    · simp [FileIndex.ScanDigest, FileIndex.Reuses, hold, hsame, eq_comm]
    · have hsame' : (old.size == n.size && old.modified == n.mtime) = false := by
        simpa using hsame
      simp only [hsame', Bool.false_eq_true, if_false, hfresh, FileIndex.ScanDigest,
        FileIndex.Reuses, hold, Option.some.injEq]
      constructor
      · intro hc
        exact .inr ⟨fun ⟨o, ho, hs, ht⟩ => hsame (ho ▸ ⟨hs, ht⟩), hc⟩
      · rintro (⟨o, rfl, hs, ht, -⟩ | ⟨-, hc⟩)
        · exact absurd ⟨hs, ht⟩ hsame
        · exact hc

theorem fingerprint_ne_none (hl : ws.lstat full = .ok n) :
    fingerprint ws full k previous ≠ .ok none := by
  unfold fingerprint
  rw [hl]
  intro h
  obtain ⟨d, -, hd⟩ := Except.map_eq_ok h
  cases hd

/-- A node below a directory has a fingerprint exactly when it can be looked at and, unless the
index supplies its digest, holds a content to hash. -/
theorem fingerprint_below_ok_iff (hp : ws.Proper) {root O : Path} (hroot : ws.LeadsToDir root O)
    {parts : List String} (hne : parts ≠ []) (hget : ws.get? (O ++ parts) = some n) :
    (∃ e, fingerprint ws (root ++ parts) k previous = .ok (some e)) ↔
      (∃ m, ws.lstat (root ++ parts) = .ok m) ∧
        (¬ previous.Reuses k n → (n.contentDigest).isSome) := by
  have hl := hp.lstat_below hroot hne hget
  cases hlong : (root ++ parts).tooLong
  · rw [if_neg (by simp [hlong])] at hl
    simp only [fingerprint_eq_ok_iff hl, hl]
    constructor
    · rintro ⟨e, -, -, (⟨old, hold, hs, ht, -⟩ | ⟨-, hc⟩)⟩
      · exact ⟨⟨n, rfl⟩, fun hr => absurd ⟨old, hold, hs, ht⟩ hr⟩
      · exact ⟨⟨n, rfl⟩, fun _ => by simp [hc]⟩
    · rintro ⟨-, hhash⟩
      by_cases hr : previous.Reuses k n
      · obtain ⟨old, hold, hs, ht⟩ := hr
        exact ⟨⟨old.digest, n.size, n.mtime⟩, rfl, rfl, .inl ⟨old, hold, hs, ht, rfl⟩⟩
      · obtain ⟨d, hd⟩ := Option.isSome_iff_exists.mp (hhash hr)
        exact ⟨⟨d, n.size, n.mtime⟩, rfl, rfl, .inr ⟨hr, hd⟩⟩
  · rw [if_pos hlong] at hl
    have hfp : fingerprint ws (root ++ parts) k previous =
        .error (.io (root ++ parts).render .nameTooLong) := by
      simp [fingerprint, hl]
    simp [hfp, hl]

theorem fingerprint_below_ne_none (hp : ws.Proper) {root O : Path}
    (hroot : ws.LeadsToDir root O) {parts : List String} (hne : parts ≠ [])
    (hget : ws.get? (O ++ parts) = some n) :
    fingerprint ws (root ++ parts) k previous ≠ .ok none := by
  have hl := hp.lstat_below hroot hne hget
  cases hlong : (root ++ parts).tooLong
  · rw [if_neg (by simp [hlong])] at hl
    exact fingerprint_ne_none hl
  · rw [if_pos hlong] at hl
    simp [fingerprint, hl]

end Fingerprint

/-! ### The walk -/

section Walk

variable {ws : Workspace} {root O : Path} {rules : RuleSet} {previous : FileIndex}
  {rel : List String}

/-- What one step of a walk does with an entry: skips it when its key is ignored, walks into it
when it is a directory, and otherwise records its fingerprint, or skips it when `lstat` finds
nothing there. -/
theorem walkStep_eq_ok {fuel : Nat} {acc acc' : FileIndex} {name : String} {node : Node}
    (h : walkStep ws root rules previous fuel rel acc (name, node) = .ok acc') :
    (rules.isIgnored ("/".intercalate (rel ++ [name])) = true ∧ acc' = acc) ∨
    (rules.isIgnored ("/".intercalate (rel ++ [name])) = false ∧ node = .dir ∧
      walkFrom ws root rules previous fuel (rel ++ [name]) acc = .ok acc') ∨
    (rules.isIgnored ("/".intercalate (rel ++ [name])) = false ∧ node.isDir = false ∧
      ((∃ e, fingerprint ws (root ++ (rel ++ [name])) ("/".intercalate (rel ++ [name]))
          previous = .ok (some e) ∧ acc' = acc.insert ("/".intercalate (rel ++ [name])) e) ∨
        (fingerprint ws (root ++ (rel ++ [name])) ("/".intercalate (rel ++ [name])) previous =
          .ok none ∧ acc' = acc))) := by
  unfold walkStep at h
  dsimp only at h
  split at h
  · next hign =>
    cases h
    exact .inl ⟨hign, rfl⟩
  · next hkeep =>
    have hkeep' := Bool.eq_false_iff.mpr hkeep
    split at h
    · next hdir => exact .inr (.inl ⟨hkeep', Node.isDir_iff.mp hdir, h⟩)
    · next hdir =>
      refine .inr (.inr ⟨hkeep', Bool.eq_false_iff.mpr hdir, ?_⟩)
      split at h
      · next e hfp =>
        cases h
        exact .inl ⟨e, hfp, rfl⟩
      · next hfp =>
        cases h
        exact .inr ⟨hfp, rfl⟩
      · cases h

theorem Workspace.Proper.leadsToDir_snoc {ws : Workspace} (hp : ws.Proper) {c : String}
    (hlead : ws.LeadsToDir (root ++ rel) (O ++ rel))
    (hget : ws.get? (O ++ (rel ++ [c])) = some .dir) :
    ws.LeadsToDir (root ++ (rel ++ [c])) (O ++ (rel ++ [c])) := by
  have hv := hp.validName_of_get? hget c (by simp)
  have hchild := hlead.child ⟨Path.validName_ne_empty hv, Path.validName_ne_dot hv,
    Path.validName_ne_dotdot hv⟩ (by simpa using hget)
  simpa using hchild

/-- Every entry of an index is the fingerprint of a node below `O` that is not a directory and
whose key the rules keep. -/
def EntriesBelow (ws : Workspace) (root O : Path) (rules : RuleSet) (previous idx : FileIndex) :
    Prop :=
  ∀ kv ∈ idx.files.entries, ∃ (parts : List String) (n : Node), parts ≠ [] ∧
    ws.get? (O ++ parts) = some n ∧ n.isDir = false ∧
    rules.isIgnored ("/".intercalate parts) = false ∧ kv.1 = "/".intercalate parts ∧
    fingerprint ws (root ++ parts) kv.1 previous = .ok (some kv.2)

theorem EntriesBelow.insert {idx : FileIndex} (h : EntriesBelow ws root O rules previous idx)
    {parts : List String} {n : Node} {e : FileEntry} (hne : parts ≠ [])
    (hget : ws.get? (O ++ parts) = some n) (hdir : n.isDir = false)
    (hkeep : rules.isIgnored ("/".intercalate parts) = false)
    (hfp : fingerprint ws (root ++ parts) ("/".intercalate parts) previous = .ok (some e)) :
    EntriesBelow ws root O rules previous (idx.insert ("/".intercalate parts) e) := by
  intro kv hkv
  rcases SortedMap.mem_insert hkv with rfl | hold
  · exact ⟨parts, n, hne, hget, hdir, hkeep, rfl, hfp⟩
  · exact h kv hold

/-- A walk below a directory reached through directories records only fingerprints of nodes
below `O` that are not directories and whose keys the rules keep. -/
theorem walkFrom_entriesBelow (hp : ws.Proper) :
    ∀ (fuel : Nat) (rel : List String) (acc r : FileIndex),
      ws.LeadsToDir (root ++ rel) (O ++ rel) → EntriesBelow ws root O rules previous acc →
      walkFrom ws root rules previous fuel rel acc = .ok r →
      EntriesBelow ws root O rules previous r := by
  intro fuel
  induction fuel with
  | zero =>
    intro rel acc r _ hacc h
    cases h
    exact hacc
  | succ fuel ih =>
    intro rel acc r hlead hacc h
    rw [walkFrom_succ hlead] at h
    split at h
    · cases h
    · refine List.foldlM_except_inv _ ?_ hacc h
      rintro b ⟨name, node⟩ b' hmem hb hstep
      have hget : ws.get? (O ++ (rel ++ [name])) = some node := by
        simpa using hp.mem_listing_iff.mp hmem
      rcases walkStep_eq_ok hstep with
        ⟨-, rfl⟩ | ⟨-, rfl, hwalk⟩ | ⟨hkeep, hdir, ⟨e, hfp, rfl⟩ | ⟨-, rfl⟩⟩
      · exact hb
      · exact ih _ b b' (hp.leadsToDir_snoc hlead hget) hb hwalk
      · exact hb.insert (by simp) hget hdir hkeep hfp
      · exact hb

/-- What a walk that succeeded has read and recorded: the directory it started in could be
listed, the keys it was given are kept, and below that directory every directory whose key the
rules keep could be listed and every other such node has a fingerprint and is recorded. The
fuel only has to exceed the depth the file system allows. -/
theorem walkFrom_visits (hp : ws.Proper) :
    ∀ (fuel : Nat) (rel : List String) (acc r : FileIndex), ws.nodes.length < fuel + rel.length →
      ws.LeadsToDir (root ++ rel) (O ++ rel) →
      walkFrom ws root rules previous fuel rel acc = .ok r →
      (∃ es, ws.readDir (root ++ rel) = .ok es) ∧ (∀ k ∈ acc.paths, k ∈ r.paths) ∧
      ∀ (rest : List String) (n : Node), rest ≠ [] → ws.get? (O ++ (rel ++ rest)) = some n →
        rules.isIgnored ("/".intercalate (rel ++ rest)) = false →
        (n = .dir → ∃ es, ws.readDir (root ++ (rel ++ rest)) = .ok es) ∧
        (n.isDir = false → ∃ e, fingerprint ws (root ++ (rel ++ rest))
          ("/".intercalate (rel ++ rest)) previous = .ok (some e) ∧
            "/".intercalate (rel ++ rest) ∈ r.paths) := by
  intro fuel
  induction fuel with
  | zero =>
    intro rel acc r hfuel hlead _
    have := hp.length_le hlead.2
    omega
  | succ fuel ih =>
    intro rel acc r hfuel hlead h
    rw [walkFrom_succ hlead] at h
    split at h
    · cases h
    · next hshort =>
      have hread : ws.readDir (root ++ rel) = .ok (ws.listing (O ++ rel)) := by
        rw [Workspace.readDir_of_leadsToDir hlead, if_neg hshort]
      -- along the fold the recorded keys only grow
      have hfold := List.foldlM_except_mem (fun a b : FileIndex => ∀ k ∈ a.paths, k ∈ b.paths)
        (fun _ _ hk => hk) (fun _ _ _ hab hbc k hk => hbc k (hab k hk)) ?_ h
      · refine ⟨⟨_, hread⟩, hfold.1, ?_⟩
        intro rest n hrest hget hkeep
        obtain ⟨c, rest', rfl⟩ := List.exists_cons_of_ne_nil hrest
        have hv := hp.validName_of_get? hget
        -- the child of this directory on the way to the node
        obtain ⟨m, hm, hmrest⟩ : ∃ m, ws.get? (O ++ (rel ++ [c])) = some m ∧
            (rest' ≠ [] → m = .dir) := by
          cases rest' with
          | nil => exact ⟨n, hget, fun h => absurd rfl h⟩
          | cons d ds =>
            have hget' : ws.get? ((O ++ (rel ++ [c])) ++ (d :: ds)) = some n := by
              simpa using hget
            exact ⟨.dir, hp.treeShaped.prefix_dir hget' (List.cons_ne_nil _ _), fun _ => rfl⟩
        have hmem : (c, m) ∈ ws.listing (O ++ rel) := hp.mem_listing_iff.mpr (by simpa using hm)
        have hkeep_c : rules.isIgnored ("/".intercalate (rel ++ [c])) = false := by
          refine Bool.eq_false_iff.mpr fun hign => ?_
          have := @isIgnored_append rules (rel ++ [c]) rest' (by simp)
            (fun x hx => hv x (by simp_all)) hign
          simp_all
        obtain ⟨b, b', hstep, hsub⟩ := hfold.2 (c, m) hmem
        rcases walkStep_eq_ok hstep with
          ⟨hign, -⟩ | ⟨-, rfl, hwalk⟩ | ⟨-, hmdir, hfp⟩
        · simp [hign] at hkeep_c
        · obtain ⟨hread', -, hbelow'⟩ := ih (rel ++ [c]) b b' (by simp; omega)
            (hp.leadsToDir_snoc hlead hm) hwalk
          cases rest' with
          | nil =>
            have hn : n = .dir := by simpa [hget] using hm
            subst hn
            exact ⟨fun _ => hread', fun h => nomatch h⟩
          | cons d ds =>
            have := hbelow' (d :: ds) n (List.cons_ne_nil _ _) (by simpa using hget)
              (by simpa using hkeep)
            simp only [List.append_assoc, List.cons_append, List.nil_append] at this
            exact ⟨this.1, fun hn => (this.2 hn).imp fun e he => ⟨he.1, hsub _ he.2⟩⟩
        · cases rest' with
          | cons d ds => simp [hmrest (List.cons_ne_nil _ _), Node.isDir] at hmdir
          | nil =>
            have hn : m = n := Option.some.inj (hm.symm.trans hget)
            subst hn
            refine ⟨fun hn => by simp [hn, Node.isDir] at hmdir, fun _ => ?_⟩
            rcases hfp with ⟨e, hfpe, rfl⟩ | ⟨hnone, -⟩
            · exact ⟨e, hfpe, hsub _ (FileIndex.mem_paths_insert_self b _ e)⟩
            · have hsome : fingerprint ws ((root ++ rel) ++ [c])
                  ("/".intercalate (rel ++ [c])) previous ≠ .ok none :=
                fingerprint_below_ne_none hp hlead (List.cons_ne_nil _ _) (by simpa using hget)
              simp only [List.append_assoc] at hsome
              exact absurd hnone hsome
      · rintro b ⟨name, node⟩ b' hmem hstep
        have hget : ws.get? (O ++ (rel ++ [name])) = some node := by
          simpa using hp.mem_listing_iff.mp hmem
        rcases walkStep_eq_ok hstep with
          ⟨-, rfl⟩ | ⟨-, rfl, hwalk⟩ | ⟨-, -, ⟨e, -, rfl⟩ | ⟨-, rfl⟩⟩
        · exact fun _ hk => hk
        · exact (ih _ b b' (by simp; omega) (hp.leadsToDir_snoc hlead hget) hwalk).2.1
        · exact fun _ hk => FileIndex.mem_paths_insert_of_mem e hk
        · exact fun _ hk => hk

/-- A walk succeeds when the directory it starts in can be listed and, below it, every
directory whose key the rules keep can be listed and every other such node has a fingerprint,
whatever it has recorded so far. -/
theorem walkFrom_succeeds (hp : ws.Proper) :
    ∀ (fuel : Nat) (rel : List String), ws.LeadsToDir (root ++ rel) (O ++ rel) →
      (∃ es, ws.readDir (root ++ rel) = .ok es) →
      (∀ rest : List String, rest ≠ [] → ws.get? (O ++ (rel ++ rest)) = some .dir →
        rules.isIgnored ("/".intercalate (rel ++ rest)) = false →
        ∃ es, ws.readDir (root ++ (rel ++ rest)) = .ok es) →
      (∀ (rest : List String) (n : Node), rest ≠ [] → ws.get? (O ++ (rel ++ rest)) = some n →
        n.isDir = false → rules.isIgnored ("/".intercalate (rel ++ rest)) = false →
        ∃ e, fingerprint ws (root ++ (rel ++ rest)) ("/".intercalate (rel ++ rest)) previous =
          .ok (some e)) →
      ∀ acc, ∃ r, walkFrom ws root rules previous fuel rel acc = .ok r := by
  intro fuel
  induction fuel with
  | zero => exact fun _ _ _ _ _ acc => ⟨acc, rfl⟩
  | succ fuel ih =>
    intro rel hlead hread hdirs hfiles acc
    have hshort : (root ++ rel).tooLong = false := by
      obtain ⟨es, hes⟩ := hread
      rw [Workspace.readDir_of_leadsToDir hlead] at hes
      cases h : (root ++ rel).tooLong
      · rfl
      · simp [h] at hes
    rw [walkFrom_succ hlead, if_neg (by simp [hshort])]
    refine List.foldlM_except_ok ?_ acc
    rintro b ⟨name, node⟩ hmem
    have hget : ws.get? (O ++ (rel ++ [name])) = some node := by
      simpa using hp.mem_listing_iff.mp hmem
    unfold walkStep
    dsimp only
    -- each kind of step can be taken: a skip, a walk into a directory, a fingerprint
    cases hign : rules.isIgnored ("/".intercalate (rel ++ [name]))
    · cases hdir : node.isDir
      · obtain ⟨e, he⟩ := hfiles [name] node (List.cons_ne_nil _ _) hget hdir hign
        exact ⟨b.insert ("/".intercalate (rel ++ [name])) e, by simp [he]⟩
      · have hnode := Node.isDir_iff.mp hdir
        subst hnode
        obtain ⟨r, hr⟩ := ih (rel ++ [name]) (hp.leadsToDir_snoc hlead hget)
          (hdirs [name] (List.cons_ne_nil _ _) hget hign)
          (fun rest _ hg hk => by
            simpa using hdirs (name :: rest) (List.cons_ne_nil _ _) (by simpa using hg)
              (by simpa using hk))
          (fun rest n _ hg hn hk => by
            simpa using hfiles (name :: rest) n (List.cons_ne_nil _ _) (by simpa using hg) hn
              (by simpa using hk))
          b
        exact ⟨r, by simp [hr]⟩
    · exact ⟨b, by simp⟩

end Walk

/-! ### Snapshots and scans -/

/-- What a scan must be able to read of the tree below the directory `O` that its root leads
to: the root itself, every directory whose key the rules keep, and every other entry whose key
they keep, which `lstat` must find and which, unless the index supplies its digest, must hold a
content to hash. -/
structure ScanReadable (ws : Workspace) (root O : Path) (rules : RuleSet)
    (previous : FileIndex) : Prop where
  listsRoot : ∃ es, ws.readDir root = .ok es
  listsDirs : ∀ parts : List String, parts ≠ [] → ws.get? (O ++ parts) = some .dir →
    rules.isIgnored ("/".intercalate parts) = false → ∃ es, ws.readDir (root ++ parts) = .ok es
  findsFiles : ∀ (parts : List String) (n : Node), parts ≠ [] → ws.get? (O ++ parts) = some n →
    n.isDir = false → rules.isIgnored ("/".intercalate parts) = false →
    (∃ m, ws.lstat (root ++ parts) = .ok m) ∧
      (¬ previous.Reuses ("/".intercalate parts) n → n.contentDigest.isSome)

/-- What a scan against `previous` reports of the tree below the directory `O` that its root
leads to. -/
structure ScanReport (ws : Workspace) (root O : Path) (rules : RuleSet) (previous : FileIndex)
    (s : Scan) : Prop where
  /-- One key for each entry below `O` that is not a directory and whose key the rules keep. -/
  keys : ∀ k, k ∈ s.snapshot.paths ↔ ∃ (parts : List String) (n : Node), parts ≠ [] ∧
    ws.get? (O ++ parts) = some n ∧ n.isDir = false ∧
    rules.isIgnored ("/".intercalate parts) = false ∧ k = "/".intercalate parts
  sorted : s.snapshot.paths.Pairwise (· < ·)
  /-- Each entry holds the size and time `lstat` finds, and the digest the index supplies or
  the content gives. -/
  entries : ∀ k e, s.snapshot.get? k = some e → ∃ (parts : List String) (n : Node),
    k = "/".intercalate parts ∧ ws.get? (O ++ parts) = some n ∧
    ws.lstat (root ++ parts) = .ok n ∧ e.size = n.size ∧ e.modified = n.mtime ∧
    previous.ScanDigest k n e.digest
  changed_sorted : s.changed.Pairwise (· < ·)
  mem_changed : ∀ k, k ∈ s.changed ↔
    ∃ e, s.snapshot.get? k = some e ∧ (previous.get? k).map (·.digest) ≠ some e.digest
  deleted_sorted : s.deleted.Pairwise (· < ·)
  mem_deleted : ∀ k, k ∈ s.deleted ↔
    k ∈ previous.paths ∧ k ∉ s.snapshot.paths ∧ rules.isIgnored k = false
  disjoint : ∀ k ∈ s.changed, k ∉ s.deleted

section Scan

variable {ws : Workspace} {root O : Path} {rules : RuleSet} {previous : FileIndex}
  {now : Time.Instant}

theorem snapshot_eq_walk {snap : FileIndex} (h : snapshot ws root rules previous now = .ok snap) :
    (∃ es, ws.readDir root = .ok es) ∧
      walkFrom ws root rules previous (ws.nodes.length + 1) [] (FileIndex.empty now) = .ok snap := by
  unfold snapshot at h
  split at h
  · cases h
  · exact ⟨⟨_, ‹_›⟩, h⟩

theorem scanAgainst_snapshot {s : Scan} (h : scanAgainst ws root rules previous now = .ok s) :
    snapshot ws root rules previous now = .ok s.snapshot := by
  unfold scanAgainst at h
  obtain ⟨snap, hsnap, h⟩ := Except.bind_eq_ok h
  cases h
  exact hsnap

theorem snapshot_ok_iff (hp : ws.Proper) :
    (∃ snap, snapshot ws root rules previous now = .ok snap) ↔
      ∃ O, ws.LeadsToDir root O ∧ ScanReadable ws root O rules previous := by
  constructor
  · rintro ⟨snap, h⟩
    obtain ⟨⟨es, hroot⟩, hwalk⟩ := snapshot_eq_walk h
    obtain ⟨O, hO⟩ := Workspace.readDir_leadsToDir hroot
    obtain ⟨-, -, hbelow⟩ := walkFrom_visits (O := O) hp _ [] _ snap (by simp)
      (by simpa using hO) hwalk
    refine ⟨O, hO, ⟨es, hroot⟩, fun parts hne hget hkeep => ?_,
      fun parts n hne hget hdir hkeep => ?_⟩
    · exact (hbelow parts .dir hne hget hkeep).1 rfl
    · obtain ⟨e, he, -⟩ := (hbelow parts n hne hget hkeep).2 hdir
      exact (fingerprint_below_ok_iff hp hO hne hget).mp ⟨e, he⟩
  · rintro ⟨O, hO, hread⟩
    obtain ⟨es, hroot⟩ := hread.listsRoot
    obtain ⟨r, hr⟩ := walkFrom_succeeds (O := O) hp (ws.nodes.length + 1) []
      (by simpa using hO) ⟨es, by simpa using hroot⟩
      (fun rest hne hget hkeep => hread.listsDirs rest hne hget hkeep)
      (fun rest n hne hget hdir hkeep =>
        (fingerprint_below_ok_iff hp hO hne hget).mpr (hread.findsFiles rest n hne hget hdir hkeep))
      (FileIndex.empty now)
    refine ⟨r, ?_⟩
    unfold snapshot
    rw [hroot]
    exact hr

theorem scanAgainst_report (hp : ws.Proper) (hsorted : previous.paths.Pairwise (· < ·))
    (hO : ws.LeadsToDir root O) {s : Scan} (h : scanAgainst ws root rules previous now = .ok s) :
    ScanReport ws root O rules previous s := by
  have hsnap := scanAgainst_snapshot h
  obtain ⟨-, hwalk⟩ := snapshot_eq_walk hsnap
  have hkeys := snapshot_keysSound hp.wellNamed hsnap
  have hbelow : EntriesBelow ws root O rules previous s.snapshot :=
    walkFrom_entriesBelow hp _ [] _ _ (by simpa using hO)
      (by simp [EntriesBelow, FileIndex.empty, SortedMap.empty]) hwalk
  obtain ⟨-, -, hvisit⟩ := walkFrom_visits (O := O) hp _ [] _ _ (by simp) (by simpa using hO) hwalk
  have hnone : ∀ k, k ∉ s.snapshot.paths ↔ s.snapshot.get? k = none := fun k => by
    simp [FileIndex.mem_paths]
  refine ⟨fun k => ⟨fun hk => ?_, ?_⟩, hkeys.2, fun k e hk => ?_,
    hkeys.2.sublist (scanAgainst_changed_sublist h), fun k => mem_changed h hkeys.2, ?_,
    fun k => by rw [mem_deleted h, hnone], ?_⟩
  · -- a key is the key of the entry recorded under it
    obtain ⟨⟨k', e⟩, hmem, rfl⟩ := List.mem_map.mp hk
    obtain ⟨parts, n, hne, hget, hdir, hkeep, hk', -⟩ := hbelow _ hmem
    exact ⟨parts, n, hne, hget, hdir, hkeep, hk'⟩
  · rintro ⟨parts, n, hne, hget, hdir, hkeep, rfl⟩
    obtain ⟨-, -, hmem⟩ := (hvisit parts n hne hget hkeep).2 hdir
    exact hmem
  · obtain ⟨parts, n, hne, hget, -, -, rfl, hfp⟩ :=
      hbelow _ (SortedMap.mem_of_get? hk)
    have hl : ws.lstat (root ++ parts) = .ok n := by
      obtain ⟨m, hm⟩ := fingerprint_found hfp
      have hbelow := hp.lstat_below hO hne hget
      split at hbelow
      · rw [hm] at hbelow
        cases hbelow
      · exact hbelow
    exact ⟨parts, n, rfl, hget, hl, (fingerprint_eq_ok_iff hl).mp hfp⟩
  · unfold scanAgainst at h
    obtain ⟨snap, -, h⟩ := Except.bind_eq_ok h
    cases h
    exact hsorted.sublist List.filter_sublist
  · intro k hc hd
    obtain ⟨e, he, -⟩ := (mem_changed h hkeys.2).mp hc
    have := ((mem_deleted h).mp hd).2.1
    simp [he] at this

end Scan

end ComponentSync
