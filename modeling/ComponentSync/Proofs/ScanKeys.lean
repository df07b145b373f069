import ComponentSync.Sync.Scan
import Mathlib.Data.String.Basic
/-! The keys of a snapshot. On a file system whose names are real names (not empty, not `.` or
`..`, without `/`), every key a scan records is the text of a path below the root made of such
names, joined by `/`; the file it names is found there; it is not ignored; and the keys are
kept in strictly increasing order. -/
namespace ComponentSync

/-- Whether a text can name a directory entry: not empty, not `.` or `..`, and without `/`. -/
def Path.validName (c : String) : Bool :=
  c != "" && c != "." && c != ".." && !c.toList.contains '/'

/-- A file system whose every path is made of valid names, as a real one is. -/
def Workspace.WellNamed (ws : Workspace) : Prop :=
  ∀ q ∈ ws.nodes, ∀ c ∈ q.1, Path.validName c = true

instance : DecidablePred Workspace.WellNamed := fun ws =>
  inferInstanceAs (Decidable (∀ q ∈ ws.nodes, ∀ c ∈ q.1, Path.validName c = true))

/-- What a snapshot records as a key: the text of a path below the root, made of valid names
joined by `/`, that `lstat` finds and that is not ignored. -/
def SnapshotKey (ws : Workspace) (root : Path) (rules : RuleSet) (key : String) : Prop :=
  ∃ parts : List String, parts ≠ [] ∧ (∀ c ∈ parts, Path.validName c = true) ∧
    key = "/".intercalate parts ∧ (∃ n, ws.lstat (root ++ parts) = .ok n) ∧
    rules.isIgnored key = false

theorem Except.bind_eq_ok {ε α β : Type} {x : Except ε α} {f : α → Except ε β} {b : β}
    (h : x >>= f = .ok b) : ∃ a, x = .ok a ∧ f a = .ok b := by
  cases x with
  | error => cases h
  | ok a => exact ⟨a, rfl, h⟩

theorem Except.map_eq_ok {ε α β : Type} {x : Except ε α} {f : α → β} {b : β}
    (h : x.map f = .ok b) : ∃ a, x = .ok a ∧ f a = b := by
  cases x with
  | error => cases h
  | ok a => exact ⟨a, rfl, by cases h; rfl⟩

theorem Except.map_eq_error {ε α β : Type} {x : Except ε α} {f : α → β} {e : ε}
    (h : x.map f = .error e) : x = .error e := by
  cases x with
  | error => cases h; rfl
  | ok a => cases h

theorem List.foldlM_except_inv {ε α β : Type} {f : β → α → Except ε β} (P : β → Prop)
    {l : List α} (step : ∀ b a b', a ∈ l → P b → f b a = .ok b' → P b') :
    ∀ {b r : β}, P b → l.foldlM f b = .ok r → P r := by
  induction l with
  | nil =>
    intro b r hb h
    cases h
    exact hb
  | cons a l ih =>
    intro b r hb h
    obtain ⟨b', h₁, h₂⟩ := Except.bind_eq_ok h
    exact ih (fun b a b' ha => step b a b' (List.mem_cons_of_mem _ ha))
      (step b a b' List.mem_cons_self hb h₁) h₂

/-- A relation between two folds over one list, kept by every pair of steps, holds of their
results when both succeed. -/
theorem List.foldlM_except_rel {ε α β γ : Type} {f : β → α → Except ε β}
    {g : γ → α → Except ε γ} (R : β → γ → Prop) {l : List α}
    (step : ∀ b c a b' c', a ∈ l → R b c → f b a = .ok b' → g c a = .ok c' → R b' c') :
    ∀ {b c r s}, R b c → l.foldlM f b = .ok r → l.foldlM g c = .ok s → R r s := by
  induction l with
  | nil =>
    intro b c r s hbc hf hg
    cases hf
    cases hg
    exact hbc
  | cons a l ih =>
    intro b c r s hbc hf hg
    obtain ⟨b', hf₁, hf₂⟩ := Except.bind_eq_ok hf
    obtain ⟨c', hg₁, hg₂⟩ := Except.bind_eq_ok hg
    exact ih (fun b c a b' c' ha => step b c a b' c' (List.mem_cons_of_mem _ ha))
      (step b c a b' c' List.mem_cons_self hbc hf₁ hg₁) hf₂ hg₂

/-! ### Keys of a sorted map -/

namespace SortedMap

variable {α : Type}

theorem keys_insertList (k : String) (v : α) (es : List (String × α)) :
    ∀ k' ∈ (insertList k v es).map (·.1), k' = k ∨ k' ∈ es.map (·.1) := by
  induction es with
  | nil => simp [insertList]
  | cons e rest ih =>
    obtain ⟨k₀, v₀⟩ := e
    intro k' hk'
    simp only [insertList] at hk'
    split at hk'
    · simpa using hk'
    · split at hk'
      · simp only [List.map_cons, List.mem_cons] at hk' ⊢
        rcases hk' with h | h
        · exact .inl h
        · exact .inr (.inr h)
      · simp only [List.map_cons, List.mem_cons] at hk' ⊢
        rcases hk' with h | h
        · exact .inr (.inl h)
        · rcases ih k' h with h | h
          · exact .inl h
          · exact .inr (.inr h)

theorem mem_keys_insert {m : SortedMap α} {k k' : String} {v : α}
    (h : k' ∈ (m.insert k v).keys) : k' = k ∨ k' ∈ m.keys :=
  keys_insertList k v m.entries k' h

theorem sorted_insertList (k : String) (v : α) (es : List (String × α))
    (hs : (es.map (·.1)).Pairwise (· < ·)) :
    ((insertList k v es).map (·.1)).Pairwise (· < ·) := by
  induction es with
  | nil => simp [insertList]
  | cons e rest ih =>
    obtain ⟨k₀, v₀⟩ := e
    simp only [List.map_cons, List.pairwise_cons] at hs
    obtain ⟨hlt, hrest⟩ := hs
    simp only [insertList]
    split
    · next hk =>
      simp only [List.map_cons, List.pairwise_cons, List.mem_cons]
      refine ⟨?_, hlt, hrest⟩
      rintro k' (rfl | hk')
      · exact hk
      · exact lt_trans hk (hlt k' hk')
    · split
      · next hk hk' =>
        subst hk'
        simp only [List.map_cons, List.pairwise_cons]
        exact ⟨hlt, hrest⟩
      · next hk hk' =>
        have hgt : k₀ < k := lt_of_le_of_ne (not_lt.mp hk) (Ne.symm hk')
        simp only [List.map_cons, List.pairwise_cons]
        refine ⟨fun k' hk' => ?_, ih hrest⟩
        rcases keys_insertList k v rest k' hk' with rfl | h
        · exact hgt
        · exact hlt k' h

theorem sorted_insert {m : SortedMap α} (k : String) (v : α) (hs : m.keys.Pairwise (· < ·)) :
    (m.insert k v).keys.Pairwise (· < ·) :=
  sorted_insertList k v m.entries hs

theorem keys_insertList_eq (k : String) (v₁ v₂ : α) :
    ∀ es₁ es₂ : List (String × α), es₁.map (·.1) = es₂.map (·.1) →
      (insertList k v₁ es₁).map (·.1) = (insertList k v₂ es₂).map (·.1)
  | [], [], _ => rfl
  | [], _ :: _, h => by simp at h
  | _ :: _, [], h => by simp at h
  | (k₁, x₁) :: rest₁, (k₂, x₂) :: rest₂, h => by
    simp only [List.map_cons, List.cons.injEq] at h
    obtain ⟨rfl, hrest⟩ := h
    by_cases hlt : k < k₁
    · simp [insertList, hlt, hrest]
    · by_cases heq : k = k₁
      · simp [insertList, heq, hrest]
      · simp [insertList, hlt, heq, keys_insertList_eq k v₁ v₂ rest₁ rest₂ hrest]

theorem keys_insert_eq {m₁ m₂ : SortedMap α} (h : m₁.keys = m₂.keys) (k : String)
    (v₁ v₂ : α) : (m₁.insert k v₁).keys = (m₂.insert k v₂).keys :=
  keys_insertList_eq k v₁ v₂ m₁.entries m₂.entries h

end SortedMap

/-! ### Walking the tree -/

section Walk

variable {ws : Workspace} {root : Path} {rules : RuleSet}

theorem readDir_validName (hw : ws.WellNamed) {p : Path} {entries : List (String × Node)}
    (h : ws.readDir p = .ok entries) : ∀ e ∈ entries, Path.validName e.1 = true := by
  intro e he
  unfold Workspace.readDir at h
  split at h
  · cases h
  · obtain ⟨q, -, h⟩ := Except.bind_eq_ok h
    split at h
    · cases h
    · cases h
      simp only [List.mem_mergeSort, List.mem_filterMap] at he
      obtain ⟨⟨r, n⟩, hr, hsel⟩ := he
      split at hsel
      · next hlen =>
        cases hsel
        simp only [Bool.and_eq_true, beq_iff_eq] at hlen
        have hne : r ≠ [] := by
          rintro rfl
          simp at hlen
        rw [List.getLast?_eq_some_getLast hne, Option.getD_some]
        exact hw (r, n) hr _ (List.getLast_mem hne)
      · cases hsel
    · cases h

theorem fingerprint_found {full : Path} {rel : String} {previous : FileIndex} {e : FileEntry}
    (h : fingerprint ws full rel previous = .ok (some e)) : ∃ n, ws.lstat full = .ok n := by
  unfold fingerprint at h
  split at h
  · cases h
  · cases h
  · exact ⟨_, ‹_›⟩

/-- What a walk keeps of the index it builds: every key is a snapshot key, and the keys are
strictly increasing. -/
def KeysSound (ws : Workspace) (root : Path) (rules : RuleSet) (idx : FileIndex) : Prop :=
  (∀ k ∈ idx.paths, SnapshotKey ws root rules k) ∧ idx.paths.Pairwise (· < ·)

theorem keysSound_empty (now : Time.Instant) : KeysSound ws root rules (FileIndex.empty now) :=
  ⟨by simp [FileIndex.empty, FileIndex.paths, SortedMap.empty, SortedMap.keys],
    by simp [FileIndex.empty, FileIndex.paths, SortedMap.empty, SortedMap.keys]⟩

theorem KeysSound.insert {idx : FileIndex} {key : String} {e : FileEntry}
    (h : KeysSound ws root rules idx) (hk : SnapshotKey ws root rules key) :
    KeysSound ws root rules (idx.insert key e) := by
  refine ⟨fun k hk' => ?_, SortedMap.sorted_insert key e h.2⟩
  rcases SortedMap.mem_keys_insert hk' with rfl | hold
  · exact hk
  · exact h.1 k hold

/-- A property of the index that recording any fingerprinted file kept by the rules preserves
holds of what a walk returns. `Q` is what the walk knows of the path it is in: it holds of the
start and passes from a directory to each entry the directory lists. -/
theorem walkFrom_inv_along (Q : List String → Prop) (previous : FileIndex)
    (P : FileIndex → Prop)
    (hQ : ∀ rel entries name node, Q rel → ws.readDir (root ++ rel) = .ok entries →
      (name, node) ∈ entries → Q (rel ++ [name]))
    (step : ∀ (acc : FileIndex) (parts : List String) (e : FileEntry), parts ≠ [] →
      Q parts → rules.isIgnored ("/".intercalate parts) = false →
      fingerprint ws (root ++ parts) ("/".intercalate parts) previous = .ok (some e) →
      P acc → P (acc.insert ("/".intercalate parts) e)) :
    ∀ (fuel : Nat) (rel : List String) (acc r : FileIndex), Q rel → P acc →
      walkFrom ws root rules previous fuel rel acc = .ok r → P r := by
  intro fuel
  induction fuel with
  | zero =>
    intro rel acc r _ hacc h
    cases h
    exact hacc
  | succ fuel ih =>
    intro rel acc r hrel hacc h
    unfold walkFrom at h
    dsimp only at h
    split at h
    · cases h
      exact hacc
    · cases h
    · next entries hdir =>
      -- one entry at a time: skipped, walked into, or fingerprinted and recorded
      refine List.foldlM_except_inv P ?_ hacc h
      rintro b ⟨name, node⟩ b' hmem hb hstep
      have hparts := hQ rel entries name node hrel hdir hmem
      dsimp only at hstep
      split at hstep
      · cases hstep
        exact hb
      · split at hstep
        · exact ih _ b b' hparts hb hstep
        · next hkeep _ =>
          split at hstep
          · next fe hfp =>
            cases hstep
            exact step b (rel ++ [name]) fe (by simp) hparts (by simpa using hkeep) hfp hb
          · cases hstep
            exact hb
          · cases hstep

theorem snapshot_inv_along (Q : List String → Prop) {previous snap : FileIndex}
    {now : Time.Instant} (hnil : Q [])
    (hQ : ∀ rel entries name node, Q rel → ws.readDir (root ++ rel) = .ok entries →
      (name, node) ∈ entries → Q (rel ++ [name]))
    (P : FileIndex → Prop)
    (step : ∀ (acc : FileIndex) (parts : List String) (e : FileEntry), parts ≠ [] →
      Q parts → rules.isIgnored ("/".intercalate parts) = false →
      fingerprint ws (root ++ parts) ("/".intercalate parts) previous = .ok (some e) →
      P acc → P (acc.insert ("/".intercalate parts) e))
    (hempty : P (FileIndex.empty now)) (h : snapshot ws root rules previous now = .ok snap) :
    P snap := by
  unfold snapshot at h
  split at h
  · cases h
  · exact walkFrom_inv_along Q previous P hQ step _ [] _ snap hnil hempty h

theorem validNames_along (hw : ws.WellNamed) {rel : List String}
    {entries : List (String × Node)} {name : String} {node : Node}
    (hrel : ∀ c ∈ rel, Path.validName c = true) (hdir : ws.readDir (root ++ rel) = .ok entries)
    (hmem : (name, node) ∈ entries) : ∀ c ∈ rel ++ [name], Path.validName c = true := by
  intro c hc
  rcases List.mem_append.mp hc with hc | hc
  · exact hrel c hc
  · rw [List.mem_singleton.mp hc]
    exact readDir_validName hw hdir _ hmem

theorem snapshot_inv (hw : ws.WellNamed) {previous snap : FileIndex} {now : Time.Instant}
    (P : FileIndex → Prop)
    (step : ∀ (acc : FileIndex) (parts : List String) (e : FileEntry), parts ≠ [] →
      (∀ c ∈ parts, Path.validName c = true) → rules.isIgnored ("/".intercalate parts) = false →
      fingerprint ws (root ++ parts) ("/".intercalate parts) previous = .ok (some e) →
      P acc → P (acc.insert ("/".intercalate parts) e))
    (hempty : P (FileIndex.empty now)) (h : snapshot ws root rules previous now = .ok snap) :
    P snap :=
  snapshot_inv_along _ (by simp) (fun _ _ _ _ hrel hdir hmem => validNames_along hw hrel hdir hmem)
    P step hempty h

/-- Every key of a snapshot of a well-named file system is a snapshot key, and the keys are
strictly increasing. -/
theorem snapshot_keysSound (hw : ws.WellNamed) {previous snap : FileIndex} {now : Time.Instant}
    (h : snapshot ws root rules previous now = .ok snap) : KeysSound ws root rules snap :=
  snapshot_inv hw (KeysSound ws root rules)
    (fun _ parts _ hne hv hkeep hfp hacc =>
      hacc.insert ⟨parts, hne, hv, rfl, fingerprint_found hfp, hkeep⟩)
    (keysSound_empty now) h

theorem scanAgainst_changed_sublist {previous : FileIndex} {now : Time.Instant} {s : Scan}
    (h : scanAgainst ws root rules previous now = .ok s) : s.changed.Sublist s.snapshot.paths := by
  unfold scanAgainst at h
  obtain ⟨snap, -, h⟩ := Except.bind_eq_ok h
  cases h
  simp only [FileIndex.paths, SortedMap.keys]
  generalize snap.files.entries = entries
  induction entries with
  | nil => simp
  | cons e rest ih =>
    obtain ⟨path, fe⟩ := e
    simp only [List.filterMap_cons, List.map_cons]
    split
    · exact ih.cons _
    · next x hkeep =>
      have hx : x = path := by
        cases hp : previous.get? path with
        | none => simp_all
        | some old => by_cases hd : old.digest = fe.digest <;> simp_all
      rw [hx]
      exact ih.cons_cons _

/-- On a well-named file system, a scan's snapshot is sound and its changed paths are keys of
the snapshot, in order. -/
theorem scan_keysSound (hw : ws.WellNamed) {now : Time.Instant} {s : Scan}
    (h : scan ws root rules now = .ok s) :
    KeysSound ws root rules s.snapshot ∧ s.changed.Sublist s.snapshot.paths := by
  unfold scan at h
  obtain ⟨previous, -, h⟩ := Except.bind_eq_ok h
  refine ⟨?_, scanAgainst_changed_sublist h⟩
  unfold scanAgainst at h
  obtain ⟨snap, hsnap, h⟩ := Except.bind_eq_ok h
  cases h
  exact snapshot_keysSound hw hsnap

/-! ### Keys do not depend on the previous index

The previous index only spares reading a file whose size and time it records; whether a path
becomes a key is decided by `lstat` alone. So two snapshots of one tree that both succeed have
the same keys, whatever indexes they were taken against. -/

theorem fingerprint_isSome_eq {full : Path} {rel : String} {p₁ p₂ : FileIndex}
    {o₁ o₂ : Option FileEntry} (h₁ : fingerprint ws full rel p₁ = .ok o₁)
    (h₂ : fingerprint ws full rel p₂ = .ok o₂) : o₁.isSome = o₂.isSome := by
  unfold fingerprint at h₁ h₂
  split at h₁
  · next hl =>
    simp only [hl] at h₂
    cases h₁
    cases h₂
    rfl
  · cases h₁
  · next node hl =>
    simp only [hl] at h₂
    obtain ⟨d₁, -, rfl⟩ := Except.map_eq_ok h₁
    obtain ⟨d₂, -, rfl⟩ := Except.map_eq_ok h₂
    rfl

/-- Two walks of one tree against different previous indexes, started from indexes with the
same keys, end with the same keys when both succeed. -/
theorem walkFrom_paths_eq (p₁ p₂ : FileIndex) :
    ∀ (fuel : Nat) (rel : List String) (acc₁ acc₂ r₁ r₂ : FileIndex), acc₁.paths = acc₂.paths →
      walkFrom ws root rules p₁ fuel rel acc₁ = .ok r₁ →
      walkFrom ws root rules p₂ fuel rel acc₂ = .ok r₂ → r₁.paths = r₂.paths := by
  intro fuel
  induction fuel with
  | zero =>
    intro rel acc₁ acc₂ r₁ r₂ hacc h₁ h₂
    cases h₁
    cases h₂
    exact hacc
  | succ fuel ih =>
    intro rel acc₁ acc₂ r₁ r₂ hacc h₁ h₂
    unfold walkFrom at h₁ h₂
    dsimp only at h₁ h₂
    split at h₁
    · next hdir =>
      simp only [hdir] at h₂
      cases h₁
      cases h₂
      exact hacc
    · cases h₁
    · next entries hdir =>
      simp only [hdir] at h₂
      -- both walks take the same entries and skip or enter the same ones; a file is recorded
      -- by both or by neither
      refine List.foldlM_except_rel (fun b c : FileIndex => b.paths = c.paths) ?_ hacc h₁ h₂
      rintro b c ⟨name, node⟩ b' c' - hbc hb hc
      dsimp only at hb hc
      split at hb
      · next hign =>
        rw [if_pos hign] at hc
        cases hb
        cases hc
        exact hbc
      · next hign =>
        rw [if_neg hign] at hc
        split at hb
        · next hdir =>
          rw [if_pos hdir] at hc
          exact ih _ b c b' c' hbc hb hc
        · next hdir =>
          rw [if_neg hdir] at hc
          split at hb <;> split at hc
          · cases hb
            cases hc
            exact SortedMap.keys_insert_eq hbc _ _ _
          · simpa using fingerprint_isSome_eq ‹fingerprint _ _ _ p₁ = .ok (some _)›
              ‹fingerprint _ _ _ p₂ = .ok none›
          · cases hc
          · simpa using fingerprint_isSome_eq ‹fingerprint _ _ _ p₁ = .ok none›
              ‹fingerprint _ _ _ p₂ = .ok (some _)›
          · cases hb
            cases hc
            exact hbc
          · cases hc
          · cases hb
          · cases hb
          · cases hb

/-- Two snapshots of one tree that both succeed have the same keys, whatever previous indexes
they were taken against. -/
theorem snapshot_paths_eq {p₁ p₂ s₁ s₂ : FileIndex} {now₁ now₂ : Time.Instant}
    (h₁ : snapshot ws root rules p₁ now₁ = .ok s₁) (h₂ : snapshot ws root rules p₂ now₂ = .ok s₂) :
    s₁.paths = s₂.paths := by
  unfold snapshot at h₁ h₂
  split at h₁
  · cases h₁
  · next hroot =>
    simp only [hroot] at h₂
    exact walkFrom_paths_eq p₁ p₂ _ [] (FileIndex.empty now₁) (FileIndex.empty now₂) s₁ s₂ rfl h₁ h₂

theorem scan_snapshot {now : Time.Instant} {s : Scan} (h : scan ws root rules now = .ok s) :
    ∃ previous, snapshot ws root rules previous now = .ok s.snapshot := by
  unfold scan at h
  obtain ⟨previous, -, h⟩ := Except.bind_eq_ok h
  unfold scanAgainst at h
  obtain ⟨snap, hsnap, h⟩ := Except.bind_eq_ok h
  cases h
  exact ⟨previous, hsnap⟩

end Walk

end ComponentSync
