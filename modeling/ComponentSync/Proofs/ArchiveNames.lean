import ComponentSync.Proofs.ScanKeys
import ComponentSync.Archive.Basic
/-! Names of archive entries for paths made of valid names. Such a path is already in normal
form: the archive stores it under its own text, or ends with a fault; it is never renamed and
never skipped when `lstat` finds it. So an archive of snapshot keys is named by the keys
themselves, cut at the first fault. -/
namespace ComponentSync

namespace Path

theorem validName_ne_empty {c : String} (h : validName c = true) : c ≠ "" := by
  simp only [validName, Bool.and_eq_true, bne_iff_ne] at h
  exact h.1.1.1

theorem validName_ne_dot {c : String} (h : validName c = true) : c ≠ "." := by
  simp only [validName, Bool.and_eq_true, bne_iff_ne] at h
  exact h.1.1.2

theorem validName_ne_dotdot {c : String} (h : validName c = true) : c ≠ ".." := by
  simp only [validName, Bool.and_eq_true, bne_iff_ne] at h
  exact h.1.2

theorem validName_no_slash {c : String} (h : validName c = true) : '/' ∉ c.toList := by
  simp only [validName, Bool.and_eq_true, Bool.not_eq_true'] at h
  simpa using h.2

theorem validName_ne_slash {c : String} (h : validName c = true) : c ≠ "/" := by
  rintro rfl
  exact validName_no_slash h (by decide)

variable {parts : List String}

theorem pieces_intercalate_of_no_slash (hne : parts ≠ [])
    (hv : ∀ c ∈ parts, '/' ∉ c.toList) :
    pieces ("/".intercalate parts) = parts := by
  unfold pieces
  rw [String.toList_intercalate, show "/".toList = ['/'] from rfl,
    List.splitOn_intercalate '/' (by simpa using hv) (by simpa using hne)]
  simp [List.map_map, Function.comp_def]

theorem pieces_intercalate (hne : parts ≠ []) (hv : ∀ c ∈ parts, validName c = true) :
    pieces ("/".intercalate parts) = parts :=
  pieces_intercalate_of_no_slash hne fun c hc => validName_no_slash (hv c hc)

theorem intercalate_inj {parts parts' : List String} (hne : parts ≠ []) (hne' : parts' ≠ [])
    (hv : ∀ c ∈ parts, validName c = true) (hv' : ∀ c ∈ parts', validName c = true)
    (h : "/".intercalate parts = "/".intercalate parts') : parts = parts' := by
  rw [← pieces_intercalate hne hv, ← pieces_intercalate hne' hv', h]

theorem join_intercalate (root : Path) (hne : parts ≠ []) (hv : ∀ c ∈ parts, validName c = true) :
    root.join ("/".intercalate parts) = root ++ parts := by
  unfold join
  rw [pieces_intercalate hne hv, List.filter_eq_self.mpr]
  intro c hc
  simp [validName_ne_empty (hv c hc), validName_ne_dot (hv c hc)]

theorem toList_intercalate_cons (c : String) (rest : List String) :
    ∃ t, ("/".intercalate (c :: rest)).toList = c.toList ++ t := by
  cases rest with
  | nil => exact ⟨[], by simp⟩
  | cons d rest => exact ⟨_, by rw [String.intercalate_cons_cons, String.append_assoc,
      String.toList_append]⟩

theorem toList_intercalate_getLast : ∀ (parts : List String) (hne : parts ≠ []),
    ∃ t, ("/".intercalate parts).toList = t ++ (parts.getLast hne).toList
  | [c], _ => ⟨[], by simp⟩
  | c :: d :: rest, _ => by
    obtain ⟨t, ht⟩ := toList_intercalate_getLast (d :: rest) (by simp)
    refine ⟨c.toList ++ ['/'] ++ t, ?_⟩
    rw [String.intercalate_cons_cons, String.toList_append, String.toList_append, ht,
      List.getLast_cons_cons]
    simp

theorem startsWith_slash_intercalate (hne : parts ≠ []) (hv : ∀ c ∈ parts, validName c = true) :
    ("/".intercalate parts).startsWith "/" = false := by
  obtain ⟨c, rest, rfl⟩ := List.exists_cons_of_ne_nil hne
  obtain ⟨t, ht⟩ := toList_intercalate_cons c rest
  have hc := hv c List.mem_cons_self
  obtain ⟨x, xs, hx⟩ := List.exists_cons_of_ne_nil
    (fun h => validName_ne_empty hc (String.toList_eq_nil_iff.mp h))
  have hslash : x ≠ '/' := fun h => validName_no_slash hc (by simp [hx, h])
  rw [String.startsWith_string_eq_false_iff, ht, hx, show "/".toList = ['/'] from rfl]
  rintro ⟨u, hu⟩
  exact hslash (List.cons_eq_cons.mp hu.symm).1

theorem endsWith_slash_intercalate (hne : parts ≠ []) (hv : ∀ c ∈ parts, validName c = true) :
    ("/".intercalate parts).endsWith "/" = false := by
  obtain ⟨t, ht⟩ := toList_intercalate_getLast parts hne
  have hc := hv _ (List.getLast_mem hne)
  have hne' : (parts.getLast hne).toList ≠ [] :=
    fun h => validName_ne_empty hc (String.toList_eq_nil_iff.mp h)
  have hlast : (parts.getLast hne).toList.getLast hne' ≠ '/' :=
    fun h => validName_no_slash hc (h ▸ List.getLast_mem hne')
  simp only [← String.endsWith_toSlice, String.Slice.endsWith_string_eq_false_iff,
    String.copy_toSlice, ht]
  rw [show "/".toList = ['/'] from rfl]
  rintro ⟨u, hu⟩
  apply hlast
  have := congrArg List.getLast? hu
  rw [List.getLast?_append_of_ne_nil _ hne', List.getLast?_eq_some_getLast hne'] at this
  simpa using this.symm

end Path

/-! ### Normal form of a path made of valid names -/

section Normal

variable {parts : List String}

@[simp] theorem PathPiece.text_named (s : String) : (PathPiece.named s).text = s := rfl

theorem PathPiece.split_intercalate (hne : parts ≠ [])
    (hv : ∀ c ∈ parts, Path.validName c = true) :
    PathPiece.split ("/".intercalate parts) = parts.map .named := by
  obtain ⟨c, rest, rfl⟩ := List.exists_cons_of_ne_nil hne
  have hc := hv c List.mem_cons_self
  have hhead : ((c :: rest).head? == some ".") = false := by
    simpa using Path.validName_ne_dot hc
  unfold PathPiece.split
  simp only [Path.pieces_intercalate hne hv, Path.startsWith_slash_intercalate hne hv, hhead,
    Bool.false_or, Bool.false_eq_true, if_false, List.nil_append]
  rw [List.filterMap_congr (g := some ∘ PathPiece.named), List.filterMap_eq_map]
  intro p hp
  have hp' := hv p hp
  simp [Path.validName_ne_empty hp', Path.validName_ne_dot hp', Path.validName_ne_dotdot hp']

theorem keptPieces_named (cutShort single : Bool) :
    ∀ (kept : List PathPiece) (ps : List String),
      keptPieces cutShort single kept (ps.map .named) = .ok (kept.reverse ++ ps.map .named)
  | kept, [] => by simp [keptPieces]
  | kept, c :: ps => by
    simp [keptPieces, keptPieces_named cutShort single (.named c :: kept) ps]

theorem foldl_join_named :
    ∀ (acc : String) (ps : List String), acc ≠ "" → acc ≠ "/" →
      (ps.map PathPiece.named).foldl (fun acc p =>
        if acc.isEmpty || acc == "/" then acc ++ p.text else acc ++ "/" ++ p.text) acc =
        "/".intercalate (acc :: ps)
  | acc, [], _, _ => by simp
  | acc, c :: ps, hne, hslash => by
    have hne' : acc ++ "/" ++ c ≠ "" := by
      intro h
      have := congrArg String.length h
      simp at this
    have hslash' : acc ++ "/" ++ c ≠ "/" := by
      intro h
      have := congrArg String.length h
      have hpos : 0 < acc.length := by
        rcases Nat.eq_zero_or_pos acc.length with h0 | h0
        · exact absurd (String.length_eq_zero_iff.mp h0) hne
        · exact h0
      simp at this
      omega
    have hstep : (acc.isEmpty || acc == "/") = false := by
      simp [hne, hslash]
    simp only [List.map_cons, List.foldl_cons, PathPiece.text_named, hstep, Bool.false_eq_true,
      if_false]
    rw [foldl_join_named _ ps hne' hslash', String.intercalate_cons_cons,
      String.intercalate_cons_append]

theorem joinPieces_named (hne : parts ≠ []) (hv : ∀ c ∈ parts, Path.validName c = true) :
    joinPieces (parts.map .named) = "/".intercalate parts := by
  obtain ⟨c, rest, rfl⟩ := List.exists_cons_of_ne_nil hne
  have hc := hv c List.mem_cons_self
  have hfirst : ("".isEmpty || "" == "/") = true := by decide
  unfold joinPieces
  simp only [List.map_cons, List.foldl_cons, hfirst, if_true, PathPiece.text_named,
    String.empty_append]
  exact foldl_join_named c rest (Path.validName_ne_empty hc) (Path.validName_ne_slash hc)

theorem normalName_intercalate (cutShort : Bool) (hne : parts ≠ [])
    (hv : ∀ c ∈ parts, Path.validName c = true) :
    normalName cutShort ("/".intercalate parts) = .ok ("/".intercalate parts) := by
  unfold normalName
  simp only [PathPiece.split_intercalate hne hv, keptPieces_named, List.reverse_nil,
    List.nil_append, bind, Except.bind]
  simp [hne, joinPieces_named hne hv, Path.endsWith_slash_intercalate hne hv]
  rfl

theorem entryName_intercalate {n : String} (hne : parts ≠ [])
    (hv : ∀ c ∈ parts, Path.validName c = true)
    (h : entryName ("/".intercalate parts) = .ok n) : n = "/".intercalate parts := by
  unfold entryName at h
  rw [normalName_intercalate false hne hv] at h
  dsimp only at h
  split at h
  · cases h
    rfl
  · split at h
    · cases h
      rfl
    · cases h

end Normal

/-! ### Archives of snapshot keys -/

section Keys

variable {ws : Workspace} {root : Path} {rules : RuleSet}

theorem archiveEntry_snapshotKey {key : String} (hk : SnapshotKey ws root rules key) :
    (∃ e, archiveEntry ws root key = .ok (some e) ∧ e.name = key) ∨
      ∃ f, archiveEntry ws root key = .error f := by
  obtain ⟨parts, hne, hv, rfl, ⟨n, hn⟩, -⟩ := hk
  have hfull : root.join ("/".intercalate parts) = root ++ parts :=
    Path.join_intercalate root hne hv
  unfold archiveEntry
  simp only [Path.startsWith_slash_intercalate hne hv, Bool.false_eq_true, if_false, hfull, hn]
  cases hname : entryName ("/".intercalate parts) with
  | ok name =>
    have hkey := entryName_intercalate hne hv hname
    cases n <;> simp [hkey]
  | error f => cases n <;> simp

/-- An archive of snapshot keys names its entries by the keys, in order, up to the fault that
ended it; with no fault, every key has its entry. -/
theorem build_names_snapshotKeys :
    ∀ (files : List String), (∀ k ∈ files, SnapshotKey ws root rules k) →
      (ArchiveRun.build ws root files).entries.map (·.name) <+: files ∧
        ((ArchiveRun.build ws root files).failure = none →
          (ArchiveRun.build ws root files).entries.map (·.name) = files)
  | [], _ => by simp [ArchiveRun.build]
  | k :: rest, hk => by
    have ih := build_names_snapshotKeys rest fun k' hk' => hk k' (List.mem_cons_of_mem _ hk')
    rcases archiveEntry_snapshotKey (hk k List.mem_cons_self) with ⟨e, he, hname⟩ | ⟨f, hf⟩
    · simp only [ArchiveRun.build, he, List.map_cons, hname]
      exact ⟨List.cons_prefix_cons.mpr ⟨rfl, ih.1⟩, fun hnone => by rw [ih.2 hnone]⟩
    · simp [ArchiveRun.build, hf]

end Keys

end ComponentSync
