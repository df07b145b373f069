import ComponentSync.Proofs.ScanSpec
/-! Ignored content is invisible to a scan. Two file systems that hold the same nodes below the
directories a root leads to, at every key the rules keep, scanned against two indexes that
agree at every such key, give the same scan: the same report, or the same failure at the same
path. A walk drops the entries the rules ignore and never enters an ignored directory, and
everything below an ignored key is ignored, so the entries it keeps are the same in both; what
it does with a kept entry reads only that entry and the index at its key. -/
namespace ComponentSync

theorem List.eq_of_pairwise_of_mem_iff {α : Type} {r : α → α → Prop}
    (hirr : ∀ a, ¬ r a a) (htrans : ∀ a b c, r a b → r b c → r a c) {l₁ l₂ : List α}
    (h₁ : l₁.Pairwise r) (h₂ : l₂.Pairwise r) (hmem : ∀ x, x ∈ l₁ ↔ x ∈ l₂) : l₁ = l₂ := by
  have hnodup : ∀ {l : List α}, l.Pairwise r → l.Nodup := fun h =>
    h.imp fun hab heq => by subst heq; exact hirr _ hab
  have hperm := (List.perm_ext_iff_of_nodup (hnodup h₁) (hnodup h₂)).mpr hmem
  exact hperm.eq_of_pairwise (fun a b _ _ hab hba => absurd (htrans a b a hab hba) (hirr a)) h₁ h₂

/-! ### One entry in two file systems -/

section Entry

variable {T₁ T₂ : Workspace} {full : Path} {k : String} {P₁ P₂ : FileIndex}

theorem fresh_congr {n : Node} (hl₁ : T₁.lstat full = .ok n) (hl₂ : T₂.lstat full = .ok n) :
    fingerprint.fresh T₁ full n = fingerprint.fresh T₂ full n := by
  cases n with
  | symlink target t =>
    simp [fingerprint.fresh, Workspace.readLink, hl₁, hl₂, bind, Except.bind, pure, Except.pure]
  | file c t =>
    have h₁ := Workspace.stat_of_lstat hl₁ fun _ _ h => Node.noConfusion h
    have h₂ := Workspace.stat_of_lstat hl₂ fun _ _ h => Node.noConfusion h
    simp [fingerprint.fresh, Workspace.readFile, h₁, h₂, bind, Except.bind, pure, Except.pure]
  | dir =>
    have h₁ := Workspace.stat_of_lstat hl₁ fun _ _ h => Node.noConfusion h
    have h₂ := Workspace.stat_of_lstat hl₂ fun _ _ h => Node.noConfusion h
    simp [fingerprint.fresh, Workspace.readFile, h₁, h₂, bind, Except.bind]
  | socket t =>
    have h₁ := Workspace.stat_of_lstat hl₁ fun _ _ h => Node.noConfusion h
    have h₂ := Workspace.stat_of_lstat hl₂ fun _ _ h => Node.noConfusion h
    simp [fingerprint.fresh, Workspace.readFile, h₁, h₂, bind, Except.bind]

theorem fingerprint_congr (hl : T₁.lstat full = T₂.lstat full) (hprev : P₁.get? k = P₂.get? k) :
    fingerprint T₁ full k P₁ = fingerprint T₂ full k P₂ := by
  unfold fingerprint
  rw [hl, hprev]
  cases hl₂ : T₂.lstat full with
  | error e => cases e <;> rfl
  | ok n =>
    have hfresh := fresh_congr (hl.trans hl₂) hl₂
    simp only [hfresh]

end Entry

/-! ### Two walks -/

section Walks

variable {T₁ T₂ : Workspace} {root O₁ O₂ : Path} {rules : RuleSet} {P₁ P₂ : FileIndex}

/-- Below two directories that hold the same nodes at every key the rules keep, a walk keeps
the same entries. -/
theorem kept_listing_eq (hp₁ : T₁.Proper) (hp₂ : T₂.Proper)
    (hagree : ∀ parts : List String, rules.isIgnored ("/".intercalate parts) = false →
      T₁.get? (O₁ ++ parts) = T₂.get? (O₂ ++ parts)) (rel : List String) :
    (T₁.listing (O₁ ++ rel)).filter (fun e => !rules.isIgnored ("/".intercalate (rel ++ [e.1]))) =
      (T₂.listing (O₂ ++ rel)).filter
        (fun e => !rules.isIgnored ("/".intercalate (rel ++ [e.1]))) := by
  refine List.eq_of_pairwise_of_mem_iff (r := fun a b => a.1 < b.1) (fun _ => lt_irrefl _)
    (fun _ _ _ => lt_trans) ((hp₁.listing_sorted _).filter _) ((hp₂.listing_sorted _).filter _) ?_
  rintro ⟨c, n⟩
  simp only [List.mem_filter, hp₁.mem_listing_iff, hp₂.mem_listing_iff, Bool.not_eq_true']
  constructor
  · rintro ⟨hget, hkeep⟩
    refine ⟨?_, hkeep⟩
    simpa [hagree (rel ++ [c]) hkeep] using hget
  · rintro ⟨hget, hkeep⟩
    refine ⟨?_, hkeep⟩
    simpa [hagree (rel ++ [c]) hkeep] using hget

/-- Two walks below directories that hold the same nodes at every key the rules keep, against
indexes that agree at every such key, give the same result, whatever fuel each has beyond the
depth of its file system. -/
theorem walkFrom_agree (hp₁ : T₁.Proper) (hp₂ : T₂.Proper)
    (hagree : ∀ parts : List String, rules.isIgnored ("/".intercalate parts) = false →
      T₁.get? (O₁ ++ parts) = T₂.get? (O₂ ++ parts))
    (hprev : ∀ k, rules.isIgnored k = false → P₁.get? k = P₂.get? k) :
    ∀ (f₁ f₂ : Nat) (rel : List String) (acc : FileIndex), T₁.nodes.length < f₁ + rel.length →
      T₂.nodes.length < f₂ + rel.length → T₁.LeadsToDir (root ++ rel) (O₁ ++ rel) →
      T₂.LeadsToDir (root ++ rel) (O₂ ++ rel) →
      walkFrom T₁ root rules P₁ f₁ rel acc = walkFrom T₂ root rules P₂ f₂ rel acc := by
  intro f₁
  induction f₁ with
  | zero =>
    intro f₂ rel acc hf₁ _ h₁ _
    have := hp₁.length_le h₁.2
    omega
  | succ f₁ ih =>
    intro f₂ rel acc hf₁ hf₂ h₁ h₂
    obtain ⟨f₂, rfl⟩ : ∃ f, f₂ = f + 1 := by
      cases f₂ with
      | zero =>
        have := hp₂.length_le h₂.2
        omega
      | succ f => exact ⟨f, rfl⟩
    rw [walkFrom_succ h₁, walkFrom_succ h₂]
    split
    · rfl
    · -- both folds skip the ignored entries and take the same kept ones in the same order
      have hskip : ∀ (T : Workspace) (P : FileIndex) (f : Nat) (b : FileIndex)
          (e : String × Node), (!rules.isIgnored ("/".intercalate (rel ++ [e.1]))) = false →
          walkStep T root rules P f rel b e = .ok b := by
        intro T P f b e he
        simp only [Bool.not_eq_false'] at he
        simp [walkStep, he]
      rw [List.foldlM_except_filter (l := T₁.listing (O₁ ++ rel)) _
          (fun b e _ he => hskip _ _ _ b e he),
        List.foldlM_except_filter (l := T₂.listing (O₂ ++ rel)) _
          (fun b e _ he => hskip _ _ _ b e he)]
      have hkept := kept_listing_eq hp₁ hp₂ hagree rel
      rw [hkept]
      refine List.foldlM_except_congr ?_ acc
      rintro b ⟨name, node⟩ hmem₂
      have hmem₁ := hmem₂
      rw [← hkept] at hmem₁
      simp only [List.mem_filter, Bool.not_eq_true'] at hmem₁ hmem₂
      have hget₁ : T₁.get? (O₁ ++ (rel ++ [name])) = some node := by
        simpa using hp₁.mem_listing_iff.mp hmem₁.1
      have hget₂ : T₂.get? (O₂ ++ (rel ++ [name])) = some node := by
        simpa using hp₂.mem_listing_iff.mp hmem₂.1
      unfold walkStep
      simp only [hmem₂.2, Bool.false_eq_true, if_false]
      cases hdir : node.isDir
      · -- a kept entry that is not a directory: the same node and the same index entry
        have hl : ∀ {T : Workspace} {O : Path}, T.Proper → T.LeadsToDir (root ++ rel) (O ++ rel) →
            T.get? (O ++ (rel ++ [name])) = some node →
            T.lstat (root ++ (rel ++ [name])) =
              if (root ++ (rel ++ [name])).tooLong then .error .nameTooLong else .ok node := by
          intro T O hp hlead hget
          have hbelow : T.lstat ((root ++ rel) ++ [name]) =
              if ((root ++ rel) ++ [name]).tooLong then .error .nameTooLong else .ok node :=
            hp.lstat_below hlead (List.cons_ne_nil _ _) (by simpa using hget)
          simpa using hbelow
        rw [fingerprint_congr ((hl hp₁ h₁ hget₁).trans (hl hp₂ h₂ hget₂).symm)
          (hprev _ hmem₂.2)]
        rfl
      · have hnode := Node.isDir_iff.mp hdir
        subst hnode
        exact ih f₂ (rel ++ [name]) b (by simp; omega) (by simp; omega)
          (hp₁.leadsToDir_snoc h₁ hget₁) (hp₂.leadsToDir_snoc h₂ hget₂)

end Walks

/-! ### Two scans -/

section Scans

variable {T₁ T₂ : Workspace} {root O₁ O₂ : Path} {rules : RuleSet} {P₁ P₂ : FileIndex}
  {now : Time.Instant}

/-- The keys of two indexes that the rules keep are the same when the indexes agree at every
such key. -/
theorem kept_paths_eq (hs₁ : P₁.paths.Pairwise (· < ·)) (hs₂ : P₂.paths.Pairwise (· < ·))
    (hprev : ∀ k, rules.isIgnored k = false → P₁.get? k = P₂.get? k) :
    P₁.paths.filter (fun k => !rules.isIgnored k) = P₂.paths.filter (fun k => !rules.isIgnored k) := by
  refine List.eq_of_pairwise_of_mem_iff (r := fun a b : String => a < b) (fun _ => lt_irrefl _)
    (fun _ _ _ => lt_trans) (hs₁.filter _) (hs₂.filter _) fun k => ?_
  simp only [List.mem_filter, FileIndex.mem_paths, Bool.not_eq_true']
  constructor
  · rintro ⟨hk, hkeep⟩
    rw [← hprev k hkeep]
    exact ⟨hk, hkeep⟩
  · rintro ⟨hk, hkeep⟩
    rw [hprev k hkeep]
    exact ⟨hk, hkeep⟩

/-- Two file systems that hold the same nodes below the directories the root leads to, at
every key the rules keep, give the same snapshot against indexes that agree at every such key. -/
theorem snapshot_agree (hp₁ : T₁.Proper) (hp₂ : T₂.Proper)
    (h₁ : T₁.LeadsToDir root O₁) (h₂ : T₂.LeadsToDir root O₂)
    (hagree : ∀ parts : List String, rules.isIgnored ("/".intercalate parts) = false →
      T₁.get? (O₁ ++ parts) = T₂.get? (O₂ ++ parts))
    (hprev : ∀ k, rules.isIgnored k = false → P₁.get? k = P₂.get? k) :
    snapshot T₁ root rules P₁ now = snapshot T₂ root rules P₂ now := by
  unfold snapshot
  rw [Workspace.readDir_of_leadsToDir h₁, Workspace.readDir_of_leadsToDir h₂]
  cases root.tooLong
  · exact walkFrom_agree hp₁ hp₂ hagree hprev (T₁.nodes.length + 1) (T₂.nodes.length + 1) [] _
      (by simp) (by simp) (by simpa using h₁) (by simpa using h₂)
  · rfl

/-- Ignored content is invisible to a scan: two file systems that hold the same nodes below the
directories the root leads to, at every key the rules keep, scanned against indexes that agree
at every such key, give the same report or the same failure. -/
theorem scanAgainst_ignores_ignored (hp₁ : T₁.Proper) (hp₂ : T₂.Proper)
    (h₁ : T₁.LeadsToDir root O₁) (h₂ : T₂.LeadsToDir root O₂)
    (hagree : ∀ parts : List String, rules.isIgnored ("/".intercalate parts) = false →
      T₁.get? (O₁ ++ parts) = T₂.get? (O₂ ++ parts))
    (hs₁ : P₁.paths.Pairwise (· < ·)) (hs₂ : P₂.paths.Pairwise (· < ·))
    (hprev : ∀ k, rules.isIgnored k = false → P₁.get? k = P₂.get? k) :
    scanAgainst T₁ root rules P₁ now = scanAgainst T₂ root rules P₂ now := by
  have hsnap : snapshot T₁ root rules P₁ now = snapshot T₂ root rules P₂ now :=
    snapshot_agree hp₁ hp₂ h₁ h₂ hagree hprev
  unfold scanAgainst
  rw [hsnap]
  cases hs : snapshot T₂ root rules P₂ now with
  | error e => rfl
  | ok snap =>
    have hkeys := snapshot_keysSound hp₂.wellNamed hs
    simp only [bind, Except.bind, pure, Except.pure, Except.ok.injEq, Scan.mk.injEq, and_true]
    constructor
    · -- a changed path is a key of the snapshot, which the rules keep
      refine List.filterMap_congr fun kv hkv => ?_
      obtain ⟨-, -, -, -, -, hkeep⟩ := hkeys.1 kv.1 (List.mem_map_of_mem hkv)
      rw [hprev kv.1 hkeep]
    · -- a deleted path is one the rules keep
      have hsplit : ∀ l : List String,
          l.filter (fun k => !snap.files.contains k && !rules.isIgnored k) =
            (l.filter fun k => !rules.isIgnored k).filter
              (fun k => !snap.files.contains k && !rules.isIgnored k) := by
        intro l
        rw [List.filter_filter]
        congr 1
        funext k
        cases rules.isIgnored k <;> simp
      rw [hsplit, hsplit P₂.paths, kept_paths_eq hs₁ hs₂ hprev]

/-- A socket in the tool's directory, which the built-in rules ignore, changes nothing in a
scan: the scan of a tree with it equals the scan of the tree without it. -/
theorem scanAgainst_ignores_ignored_socket :
    let T₁ : Workspace := ⟨[([".odo"], .socket ⟨0, 0⟩), (["a.txt"], .file ⟨#[104]⟩ ⟨0, 0⟩)], .ext4⟩
    let T₂ : Workspace := ⟨[(["a.txt"], .file ⟨#[104]⟩ ⟨0, 0⟩)], .ext4⟩
    let P := FileIndex.empty ⟨0, 0⟩
    T₁.Proper ∧ T₂.Proper ∧ T₁.LeadsToDir [] [] ∧ T₂.LeadsToDir [] [] ∧
      (∀ parts : List String, RuleSet.builtin.isIgnored ("/".intercalate parts) = false →
        T₁.get? ([] ++ parts) = T₂.get? ([] ++ parts)) ∧
      P.paths.Pairwise (· < ·) ∧
      (∀ k, RuleSet.builtin.isIgnored k = false → P.get? k = P.get? k) ∧
      scanAgainst T₁ [] RuleSet.builtin P ⟨0, 0⟩ = scanAgainst T₂ [] RuleSet.builtin P ⟨0, 0⟩ := by
  intro T₁ T₂ P
  have hp₁ : T₁.Proper := ⟨by decide, by decide, by decide⟩
  have hp₂ : T₂.Proper := ⟨by decide, by decide, by decide⟩
  have hlead : ∀ T : Workspace, T.LeadsToDir [] [] := fun T =>
    ⟨Workspace.resolve_nil true, Workspace.get?_nil⟩
  have hagree : ∀ parts : List String, RuleSet.builtin.isIgnored ("/".intercalate parts) = false →
      T₁.get? ([] ++ parts) = T₂.get? ([] ++ parts) := by
    intro parts hkeep
    by_cases hodo : parts = [".odo"]
    · subst hodo
      simpa [toolDir] using hkeep.symm.trans RuleSet.builtin_ignores_toolDir
    · by_cases hnil : parts = []
      · simp [hnil]
      · have hne : ([".odo"] == parts) = false := beq_eq_false_iff_ne.mpr fun h => hodo h.symm
        simp [T₁, T₂, Workspace.get?, hnil, List.find?_cons, hne]
  have hs : P.paths.Pairwise (· < ·) := by
    simp [P, FileIndex.empty, FileIndex.paths, SortedMap.empty, SortedMap.keys]
  exact ⟨hp₁, hp₂, hlead T₁, hlead T₂, hagree, hs, fun _ _ => rfl,
    scanAgainst_ignores_ignored hp₁ hp₂ (hlead T₁) (hlead T₂) hagree hs hs fun _ _ => rfl⟩

end Scans

end ComponentSync
