import ComponentSync.Proofs.IgnoreRules
import ComponentSync.Proofs.ScanDiff
/-! Walking a tree. On a file system shaped as a real one (`Workspace.Proper`: valid names, no
path stored twice, the parent of every node a directory), a path that leads to a directory lists
exactly that directory's children, in strictly increasing order of name, and every node below
it is reached through directories only. A path below a directory is no longer than the file
system has nodes, which is what bounds the depth of a walk. -/
namespace ComponentSync

/-! ### Folds that may fail -/

section Folds

variable {ε α β : Type} {f g : β → α → Except ε β}

theorem List.foldlM_except_congr {l : List α} (h : ∀ b, ∀ a ∈ l, f b a = g b a) (b : β) :
    l.foldlM f b = l.foldlM g b := by
  induction l generalizing b with
  | nil => rfl
  | cons a l ih =>
    simp only [List.foldlM_cons, h b a List.mem_cons_self]
    cases g b a with
    | error e => rfl
    | ok b' => exact ih (fun b a ha => h b a (List.mem_cons_of_mem _ ha)) b'

theorem List.foldlM_except_filter (p : α → Bool) {l : List α}
    (h : ∀ b, ∀ a ∈ l, p a = false → f b a = .ok b) (b : β) :
    l.foldlM f b = (l.filter p).foldlM f b := by
  induction l generalizing b with
  | nil => rfl
  | cons a l ih =>
    have ih' := ih fun b a ha => h b a (List.mem_cons_of_mem _ ha)
    cases hp : p a with
    | false =>
      have hskip : (a :: l).filter p = l.filter p := by simp [hp]
      rw [hskip, List.foldlM_cons, h b a List.mem_cons_self hp]
      exact ih' b
    | true =>
      simp only [List.foldlM_cons, List.filter_cons, hp, if_true]
      cases f b a with
      | error e => rfl
      | ok b' => exact ih' b'

theorem List.foldlM_except_ok {l : List α} (h : ∀ b, ∀ a ∈ l, ∃ b', f b a = .ok b') (b : β) :
    ∃ r, l.foldlM f b = .ok r := by
  induction l generalizing b with
  | nil => exact ⟨b, rfl⟩
  | cons a l ih =>
    obtain ⟨b', hb'⟩ := h b a List.mem_cons_self
    obtain ⟨r, hr⟩ := ih (fun b a ha => h b a (List.mem_cons_of_mem _ ha)) b'
    exact ⟨r, by rw [List.foldlM_cons, hb']; exact hr⟩

/-- In a fold that succeeded, every element was taken by a step that succeeded, and the
result extends what that step returned, for any order that every step extends. -/
theorem List.foldlM_except_mem (R : β → β → Prop) (hrefl : ∀ b, R b b)
    (htrans : ∀ a b c, R a b → R b c → R a c) {l : List α}
    (hstep : ∀ b a b', a ∈ l → f b a = .ok b' → R b b') :
    ∀ {b r : β}, l.foldlM f b = .ok r → R b r ∧ ∀ a ∈ l, ∃ c c', f c a = .ok c' ∧ R c' r := by
  induction l with
  | nil =>
    intro b r h
    cases h
    exact ⟨hrefl b, by simp⟩
  | cons a l ih =>
    intro b r h
    obtain ⟨b', h₁, h₂⟩ := Except.bind_eq_ok h
    obtain ⟨hrest, hmem⟩ := ih (fun b a b' ha => hstep b a b' (List.mem_cons_of_mem _ ha)) h₂
    refine ⟨htrans _ _ _ (hstep b a b' List.mem_cons_self h₁) hrest, ?_⟩
    intro x hx
    rcases List.mem_cons.mp hx with rfl | hx
    · exact ⟨b, b', h₁, hrest⟩
    · exact hmem x hx

end Folds

namespace Workspace

/-- A file system as a real one is: every path is made of valid names, no path is stored twice,
and the parent of every node is a directory. -/
structure Proper (ws : Workspace) : Prop where
  wellNamed : ws.WellNamed
  distinct : (ws.nodes.map Prod.fst).Nodup
  treeShaped : ws.TreeShaped

variable {ws : Workspace}

/-! ### Nodes of a proper file system -/

theorem Proper.get?_eq_some_iff (h : ws.Proper) {p : Path} {n : Node} (hp : p ≠ []) :
    ws.get? p = some n ↔ (p, n) ∈ ws.nodes := by
  refine ⟨fun hg => (mem_of_get?_eq_some hg).resolve_left fun h0 => hp h0.1, fun hmem => ?_⟩
  obtain ⟨m, hm⟩ := Option.isSome_iff_exists.mp (get?_isSome_of_mem hmem)
  have hmem' := (mem_of_get?_eq_some hm).resolve_left fun h0 => hp h0.1
  have hsame := List.inj_on_of_nodup_map h.distinct hmem' hmem rfl
  simp only [Prod.mk.injEq, true_and] at hsame
  rw [hm, hsame]

theorem Proper.validName_of_get? (h : ws.Proper) {p : Path} {n : Node}
    (hget : ws.get? p = some n) : ∀ c ∈ p, Path.validName c = true := by
  rcases mem_of_get?_eq_some hget with ⟨rfl, -⟩ | hmem
  · simp
  · exact h.wellNamed _ hmem

theorem TreeShaped.prefix_dir (h : ws.TreeShaped) {p more : Path} {n : Node}
    (hget : ws.get? (p ++ more) = some n) (hmore : more ≠ []) : ws.get? p = some .dir := by
  have hlen : p.length < (p ++ more).length := by
    simpa using List.length_pos_iff.mpr hmore
  have := h.take_dir _ (p ++ more) rfl (by rw [hget]; rfl) p.length hlen
  rwa [List.take_left] at this

/-- A path below `O` that names a node is no longer than the file system has nodes: its
prefixes below `O` are all stored, each once. -/
theorem Proper.length_le (h : ws.Proper) {O rel : Path} {n : Node}
    (hget : ws.get? (O ++ rel) = some n) : rel.length ≤ ws.nodes.length := by
  let chain := (List.range rel.length).map fun i => (O ++ rel).take (O.length + i + 1)
  have hnodup : chain.Nodup := by
    refine List.Nodup.map_on ?_ List.nodup_range
    intro i hi j hj hij
    have hlen := congrArg List.length hij
    simp only [List.mem_range] at hi hj
    simp only [List.length_take, List.length_append] at hlen
    omega
  have hsub : chain ⊆ ws.nodes.map Prod.fst := by
    intro p hp
    obtain ⟨i, hi, rfl⟩ := List.mem_map.mp hp
    rw [List.mem_range] at hi
    have hne : (O ++ rel).take (O.length + i + 1) ≠ [] := by
      intro h0
      have := congrArg List.length h0
      simp only [List.length_take, List.length_append, List.length_nil] at this
      omega
    have hsome : (ws.get? ((O ++ rel).take (O.length + i + 1))).isSome := by
      by_cases hlast : O.length + i + 1 = (O ++ rel).length
      · rw [hlast, List.take_length, hget]
        rfl
      · rw [h.treeShaped.take_dir _ _ rfl (by rw [hget]; rfl) _ (by simp at hlast ⊢; omega)]
        rfl
    obtain ⟨x, hx, hx1⟩ := exists_mem_of_isSome hsome hne
    exact List.mem_map.mpr ⟨x, hx, hx1⟩
  have := hnodup.length_le_of_subset hsub
  simpa [chain] using this

/-! ### Listing a directory -/

/-- The entries of the directory at the canonical path `q`, as a directory is read: the last
name and the node of every path one below `q`, in order of name. -/
def listing (ws : Workspace) (q : Path) : List (String × Node) :=
  (ws.nodes.filterMap fun (r, n) =>
    if r.length == q.length + 1 && q.isPrefixOf r then some (r.getLast?.getD "", n)
    else none).mergeSort fun a b => a.1 ≤ b.1

theorem readDir_of_leadsToDir {p q : Path} (h : ws.LeadsToDir p q) :
    ws.readDir p = if p.tooLong then .error .nameTooLong else .ok (ws.listing q) := by
  unfold readDir listing
  cases p.tooLong
  · simp [h.1, h.2, bind, Except.bind, pure, Except.pure]
  · rfl

theorem listing_select {q r : Path} {m : Node} {b : String × Node}
    (h : (if r.length == q.length + 1 && q.isPrefixOf r then some (r.getLast?.getD "", m)
      else none) = some b) : r = q ++ [b.1] ∧ b.2 = m := by
  split at h
  · next hcond =>
    cases h
    simp only [Bool.and_eq_true, beq_iff_eq, List.isPrefixOf_iff_prefix] at hcond
    obtain ⟨hlen, t, rfl⟩ := hcond
    obtain ⟨x, rfl⟩ := List.length_eq_one_iff.mp (by simpa using hlen)
    simp
  · cases h

theorem mem_listing {q : Path} {c : String} {n : Node} :
    (c, n) ∈ ws.listing q ↔ (q ++ [c], n) ∈ ws.nodes := by
  unfold listing
  rw [List.mem_mergeSort, List.mem_filterMap]
  constructor
  · rintro ⟨⟨r, m⟩, hr, hsel⟩
    obtain ⟨rfl, rfl⟩ := listing_select hsel
    exact hr
  · intro hmem
    exact ⟨(q ++ [c], n), hmem, by simp⟩

theorem Proper.mem_listing_iff (h : ws.Proper) {q : Path} {c : String} {n : Node} :
    (c, n) ∈ ws.listing q ↔ ws.get? (q ++ [c]) = some n := by
  rw [mem_listing, h.get?_eq_some_iff (by simp)]

/-- A directory lists its entries in strictly increasing order of name: two entries of one name
would be one path stored twice. -/
theorem Proper.listing_sorted (h : ws.Proper) (q : Path) :
    (ws.listing q).Pairwise fun a b => a.1 < b.1 := by
  have hle : (ws.listing q).Pairwise fun a b => a.1 ≤ b.1 := by
    have := @List.pairwise_mergeSort (String × Node) (fun a b => decide (a.1 ≤ b.1))
      (fun a b c hab hbc => by simp only [decide_eq_true_eq] at *; exact le_trans hab hbc)
      (fun a b => by simpa using le_total a.1 b.1)
      (ws.nodes.filterMap fun (r, n) =>
        if r.length == q.length + 1 && q.isPrefixOf r then some (r.getLast?.getD "", n)
        else none)
    simpa [listing] using this
  have hne : (ws.listing q).Pairwise fun a b => a.1 ≠ b.1 := by
    unfold listing
    refine ((List.mergeSort_perm _ _).pairwise_iff fun hab => Ne.symm hab).mpr ?_
    refine List.Pairwise.filterMap _ ?_ (List.pairwise_map.mp h.distinct)
    rintro ⟨r, m⟩ ⟨r', m'⟩ hrr' b hb b' hb' hname
    obtain ⟨rfl, -⟩ := listing_select hb
    obtain ⟨rfl, -⟩ := listing_select hb'
    exact hrr' (by rw [hname])
  exact (hle.and hne).imp fun hab => lt_of_le_of_ne hab.1 hab.2

/-! ### Paths below a directory -/

/-- A path that continues one leading to a directory, down to a stored directory, leads to
that directory. -/
theorem Proper.leadsToDir_append (h : ws.Proper) :
    ∀ {root O : Path} (rel : List String), ws.LeadsToDir root O →
      ws.get? (O ++ rel) = some .dir → ws.LeadsToDir (root ++ rel) (O ++ rel)
  | root, O, [], hroot, _ => by simpa using hroot
  | root, O, c :: rest, hroot, hget => by
    have hget' : ws.get? ((O ++ [c]) ++ rest) = some .dir := by simpa using hget
    have hc : ws.get? (O ++ [c]) = some .dir := by
      cases rest with
      | nil => simpa using hget
      | cons _ _ => exact h.treeShaped.prefix_dir hget' (List.cons_ne_nil _ _)
    have hv := h.validName_of_get? hc c (by simp)
    have hchild := hroot.child ⟨Path.validName_ne_empty hv, Path.validName_ne_dot hv,
      Path.validName_ne_dotdot hv⟩ hc
    simpa using h.leadsToDir_append rest hchild hget'

/-- `lstat` of a path below a directory finds the node stored there, unless the path is too
long. -/
theorem Proper.lstat_below (h : ws.Proper) {root O : Path} (hroot : ws.LeadsToDir root O)
    {parts : List String} (hne : parts ≠ []) {n : Node} (hget : ws.get? (O ++ parts) = some n) :
    ws.lstat (root ++ parts) =
      if (root ++ parts).tooLong then .error .nameTooLong else .ok n := by
  obtain ⟨init, c, hsplit⟩ := (List.eq_nil_or_concat parts).resolve_left hne
  rw [List.concat_eq_append] at hsplit
  subst hsplit
  have hget' : ws.get? ((O ++ init) ++ [c]) = some n := by simpa using hget
  have hdir := h.treeShaped.prefix_dir hget' (List.cons_ne_nil _ _)
  have hlead := h.leadsToDir_append init hroot hdir
  have hv := h.validName_of_get? hget' c (by simp)
  have hres := resolve_child hlead ⟨Path.validName_ne_empty hv, Path.validName_ne_dot hv,
    Path.validName_ne_dotdot hv⟩ (b := false) (.inl rfl)
  simp only [List.append_assoc] at hres hget'
  unfold lstat
  cases (root ++ (init ++ [c])).tooLong
  · simp [hres, hget', bind, Except.bind, pure, Except.pure]
  · rfl

end Workspace

/-! ### One level of a walk -/

/-- One step of a walk in the directory `rel`: an entry whose key the rules ignore is skipped, a
directory is walked into, and anything else is fingerprinted and recorded. -/
def walkStep (ws : Workspace) (root : Path) (rules : RuleSet) (previous : FileIndex) (fuel : Nat)
    (rel : List String) (acc : FileIndex) (entry : String × Node) : Except SyncError FileIndex :=
  if rules.isIgnored ("/".intercalate (rel ++ [entry.1])) then .ok acc
  else if entry.2.isDir then walkFrom ws root rules previous fuel (rel ++ [entry.1]) acc
  else
    match fingerprint ws (root ++ (rel ++ [entry.1])) ("/".intercalate (rel ++ [entry.1]))
        previous with
    | .ok (some e) => .ok (acc.insert ("/".intercalate (rel ++ [entry.1])) e)
    | .ok none => .ok acc
    | .error err => .error err

section Walk

variable {ws : Workspace} {root O : Path} {rules : RuleSet} {previous : FileIndex}
  {rel : List String}

/-- A walk below a directory reached through directories folds `walkStep` over the directory's
listing, unless the directory's path is too long. -/
theorem walkFrom_succ (hlead : ws.LeadsToDir (root ++ rel) (O ++ rel)) (fuel : Nat)
    (acc : FileIndex) :
    walkFrom ws root rules previous (fuel + 1) rel acc =
      if (root ++ rel).tooLong then .error (.io (root ++ rel).render .nameTooLong)
      else (ws.listing (O ++ rel)).foldlM (walkStep ws root rules previous fuel rel) acc := by
  rw [walkFrom, Workspace.readDir_of_leadsToDir hlead]
  cases (root ++ rel).tooLong <;> rfl

end Walk

end ComponentSync
