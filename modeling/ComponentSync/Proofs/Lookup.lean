import ComponentSync.Proofs.ScanKeys
/-! Looking paths up. A lookup walks a path one component at a time from the top directory.
Two facts carry every argument about it: a lookup that has reached a directory goes on from
there with the rest of the path (`go_append`), and a lookup that ends in a directory has only
passed through directories and links, so changing any other node leaves it as it was
(`go_frame`). On a file system shaped as a tree, where every node's parent is a directory,
nothing lies below a missing node or a file. -/
namespace ComponentSync

theorem Node.isDir_iff {n : Node} : n.isDir = true ↔ n = .dir := by
  cases n <;> simp [Node.isDir]

/-- A node a lookup can pass through: a directory, or a link it follows. -/
def Node.leadsOn : Node → Bool
  | .dir | .symlink _ _ => true
  | _ => false

namespace Workspace

variable {ws ws' : Workspace}

/-! ### Nodes -/

@[simp] theorem get?_nil : ws.get? [] = some .dir := rfl

@[simp] theorem stamps_put (p : Path) (n : Node) : (ws.put p n).stamps = ws.stamps := rfl

@[simp] theorem stamps_drop (p : Path) : (ws.drop p).stamps = ws.stamps := rfl

theorem get?_of_ne_nil {p : Path} (hp : p ≠ []) :
    ws.get? p = (ws.nodes.find? (·.1 == p)).map (·.2) := by
  simp [get?, hp]

theorem get?_isSome_of_mem {p : Path} {n : Node} (h : (p, n) ∈ ws.nodes) : (ws.get? p).isSome := by
  by_cases hp : p = []
  · simp [hp]
  · rw [get?_of_ne_nil hp, Option.isSome_map, List.find?_isSome]
    exact ⟨(p, n), h, by simp⟩

theorem exists_mem_of_isSome {p : Path} (hs : (ws.get? p).isSome) (hp : p ≠ []) :
    ∃ x ∈ ws.nodes, x.1 = p := by
  rw [get?_of_ne_nil hp, Option.isSome_map, List.find?_isSome] at hs
  obtain ⟨x, hx, hxp⟩ := hs
  exact ⟨x, hx, by simpa using hxp⟩

theorem mem_of_get?_eq_some {p : Path} {n : Node} (h : ws.get? p = some n) :
    (p = [] ∧ n = .dir) ∨ (p, n) ∈ ws.nodes := by
  by_cases hp : p = []
  · subst hp
    simp at h
    exact .inl ⟨rfl, h.symm⟩
  · rw [get?_of_ne_nil hp] at h
    obtain ⟨x, hx, rfl⟩ := Option.map_eq_some_iff.mp h
    have hmem := List.mem_of_find?_eq_some hx
    have hkey : x.1 = p := by simpa using List.find?_some hx
    exact .inr (hkey ▸ hmem)

theorem lstat_stored {p : Path} {n : Node} (h : ws.lstat p = .ok n) :
    n = .dir ∨ ∃ q, (q, n) ∈ ws.nodes := by
  unfold lstat at h
  split at h
  · cases h
  · obtain ⟨q, -, hget⟩ := Except.bind_eq_ok h
    split at hget
    · next node hq =>
      cases hget
      rcases mem_of_get?_eq_some hq with ⟨-, rfl⟩ | hmem
      · exact .inl rfl
      · exact .inr ⟨q, hmem⟩
    · cases hget

theorem get?_put {p q : Path} (hp : p ≠ []) (n : Node) :
    (ws.put p n).get? q = if q = p then some n else ws.get? q := by
  by_cases hq : q = []
  · subst hq
    simp [Ne.symm hp]
  · simp only [get?_of_ne_nil hq, put, List.find?_cons, List.find?_filter]
    by_cases hqp : q = p
    · subst hqp
      simp
    · have hpq : (p == q) = false := by simp [Ne.symm hqp]
      simp only [hpq, hqp, if_false]
      congr 2
      funext x
      by_cases hx : x.1 = q
      · simp [hx, hqp]
      · simp [hx]

theorem get?_cons {x : Path × Node} {l : List (Path × Node)} {r : StampRange} {p : Path}
    (hp : p ≠ []) :
    (⟨x :: l, r⟩ : Workspace).get? p = if x.1 = p then some x.2 else (⟨l, r⟩ : Workspace).get? p := by
  simp only [get?_of_ne_nil hp, List.find?_cons]
  by_cases hx : x.1 = p
  · simp [hx]
  · have : (x.1 == p) = false := by simp [hx]
    simp [this, hx]

theorem get?_drop {p q : Path} (hq : q ≠ []) :
    (ws.drop p).get? q = if p <+: q then none else ws.get? q := by
  simp only [get?_of_ne_nil hq, drop, List.find?_filter]
  by_cases hpq : p <+: q
  · simp only [hpq, if_true]
    rw [Option.map_eq_none_iff, List.find?_eq_none]
    intro x _
    by_cases hx : x.1 = q
    · simp [hx, List.isPrefixOf_iff_prefix.mpr hpq]
    · simp [hx]
  · simp only [hpq, if_false]
    congr 2
    funext x
    by_cases hx : x.1 = q
    · have : p.isPrefixOf q = false :=
        Bool.eq_false_iff.mpr fun h => hpq (List.isPrefixOf_iff_prefix.mp h)
      simp [hx, this]
    · simp [hx]


/-! ### Tree shape -/

/-- A file system shaped as a tree: the parent of every node is a directory. -/
def TreeShaped (ws : Workspace) : Prop :=
  ∀ q ∈ ws.nodes, q.1 ≠ [] → (ws.get? q.1.dropLast).any Node.isDir = true

instance : DecidablePred TreeShaped := fun ws =>
  inferInstanceAs (Decidable (∀ q ∈ ws.nodes, q.1 ≠ [] → (ws.get? q.1.dropLast).any Node.isDir = true))

theorem TreeShaped.parent (h : ws.TreeShaped) {p : Path} (hs : (ws.get? p).isSome)
    (hp : p ≠ []) : ws.get? p.dropLast = some .dir := by
  obtain ⟨x, hx, hx1⟩ := exists_mem_of_isSome hs hp
  have := h x hx (hx1 ▸ hp)
  rw [hx1, Option.any_eq_true] at this
  obtain ⟨n, hn, hdir⟩ := this
  rw [hn, Node.isDir_iff.mp hdir]

/-- Putting a node under a directory keeps the tree shape, unless it replaces a directory
by something else. -/
theorem TreeShaped.put (h : ws.TreeShaped) {p : Path} (hp : p ≠ [])
    (hpar : ws.get? p.dropLast = some .dir) {n : Node} (hn : n = .dir ∨ ws.get? p ≠ some .dir) :
    (ws.put p n).TreeShaped := by
  intro x hx hxne
  have hdrop : p.dropLast ≠ p := by
    intro heq
    have := congrArg List.length heq
    simp only [List.length_dropLast] at this
    have := List.length_pos_iff.mpr hp
    omega
  simp only [Workspace.put, List.mem_cons, List.mem_filter, bne_iff_ne, ne_eq] at hx
  rw [get?_put hp]
  rcases hx with rfl | ⟨hx, hxp⟩
  · simp [hdrop, hpar, Node.isDir]
  · split
    · next hparent =>
      rcases hn with rfl | hn
      · simp [Node.isDir]
      · have := h x hx hxne
        rw [hparent, Option.any_eq_true] at this
        obtain ⟨m, hm, hdir⟩ := this
        exact absurd (hm.trans (congrArg some (Node.isDir_iff.mp hdir))) hn
    · exact h x hx hxne

theorem TreeShaped.take_dir (h : ws.TreeShaped) :
    ∀ (n : Nat) (r : Path), r.length = n → (ws.get? r).isSome →
      ∀ k < n, ws.get? (r.take k) = some .dir := by
  intro n
  induction n with
  | zero => intro r _ _ k hk; omega
  | succ n ih =>
    intro r hr hs k hk
    have hne : r ≠ [] := by
      rintro rfl
      simp at hr
    have hparent := h.parent hs hne
    rcases Nat.lt_succ_iff_lt_or_eq.mp hk with hk | rfl
    · have hlen : r.dropLast.length = n := by simp [hr]
      have := ih r.dropLast hlen (by simp [hparent]) k hk
      rwa [List.dropLast_eq_take, List.take_take, Nat.min_eq_left (by omega)] at this
    · rw [List.dropLast_eq_take, hr] at hparent
      simpa using hparent

theorem TreeShaped.nothing_below (h : ws.TreeShaped) {p : Path} (hp : ws.get? p ≠ some .dir)
    {x : Path × Node} (hx : x ∈ ws.nodes) (hpx : p <+: x.1) : x.1 = p := by
  obtain ⟨t, ht⟩ := hpx
  refine Classical.byContradiction fun hne => ?_
  have hlen : p.length < x.1.length := by
    have : t ≠ [] := by
      rintro rfl
      simp_all
    rw [← ht, List.length_append]
    have := List.length_pos_iff.mpr this
    omega
  have := h.take_dir x.1.length x.1 rfl (get?_isSome_of_mem hx) p.length hlen
  rw [← ht, List.take_left] at this
  exact hp this


theorem TreeShaped.child_none (h : ws.TreeShaped) {p : Path} (hp : ws.get? p ≠ some .dir)
    (c : String) : ws.get? (p ++ [c]) = none := by
  cases hs : ws.get? (p ++ [c]) with
  | none => rfl
  | some n =>
    exfalso
    have hsome : (ws.get? (p ++ [c])).isSome := by rw [hs]; rfl
    obtain ⟨x, hx, hx1⟩ := exists_mem_of_isSome hsome (by simp)
    have := h.nothing_below hp hx (hx1 ▸ List.prefix_append p [c])
    rw [hx1] at this
    simp at this

/-! ### Lookups -/

theorem resolve_nil (b : Bool) : ws.resolve [] b = .ok [] := by
  unfold resolve
  rw [resolve.go.eq_2]
  simp

theorem stop_eq {rest : List String} {next q : Path} {e : OsError}
    (h : (if rest.isEmpty then .ok next else .error e : Except OsError Path) = .ok q) :
    q = next := by
  split at h <;> cases h
  rfl

/-- A lookup that has reached a directory with its whole path read goes on from there with
whatever follows: the rest of a longer path is looked up from that directory, with the fuel
the first part left over. -/
theorem go_append (b : Bool) {ys : List String} (hys : ys ≠ []) (m : Nat) :
    ∀ (fuel links : Nat) (cur : Path) (xs : List String) (q : Path),
      resolve.go ws true fuel links cur xs = .ok q → ws.get? q = some .dir →
      ∃ fuel' links', 0 < fuel' ∧
        resolve.go ws b (fuel + m) links cur (xs ++ ys) = resolve.go ws b (fuel' + m) links' q ys := by
  intro fuel
  induction fuel with
  | zero =>
    intro links cur xs q h
    simp [resolve.go] at h
  | succ f ih =>
    intro links cur xs q h hq
    cases xs with
    | nil =>
      rw [resolve.go.eq_2 _ _ _ _ _ (by omega)] at h
      cases h
      exact ⟨f + 1, links, by omega, rfl⟩
    | cons c rest =>
      have hfuel : f + 1 + m = (f + m) + 1 := by omega
      rw [resolve.go.eq_3] at h
      rw [List.cons_append, hfuel, resolve.go.eq_3]
      by_cases hskip : (c == "" || c == ".") = true
      · rw [if_pos hskip] at h ⊢
        exact ih links cur rest q h hq
      rw [if_neg hskip] at h ⊢
      by_cases hup : (c == "..") = true
      · rw [if_pos hup] at h ⊢
        exact ih links cur.dropLast rest q h hq
      rw [if_neg hup] at h ⊢
      have hlong : (rest ++ ys).isEmpty = false := by simp [hys]
      -- the next node decides; a lookup that ends in a directory only went on through
      -- directories and links
      rcases hn : ws.get? (cur ++ [c]) with _ | n
      · simp only [hn] at h
        cases stop_eq h
        simp [hn] at hq
      · cases n with
        | dir =>
          simp only [hn] at h ⊢
          exact ih links (cur ++ [c]) rest q h hq
        | symlink target t =>
          simp only [hn, Bool.not_true, Bool.and_false, hlong, Bool.false_and,
            Bool.false_eq_true, if_false] at h ⊢
          split at h
          · cases h
          · rw [if_neg ‹_›, ← List.append_assoc]
            exact ih (links + 1) _ _ q h hq
        | file _ _ | socket _ =>
          simp only [hn] at h
          cases stop_eq h
          simp [hn] at hq


/-- A lookup that ends in a directory is not changed by changing nodes it could not pass
through: everything it looked at on its way was a directory or a link. -/
theorem go_frame (hagree : ∀ p, (ws.get? p).any Node.leadsOn = true → ws'.get? p = ws.get? p)
    (b : Bool) :
    ∀ (fuel links : Nat) (cur : Path) (xs : List String) (q : Path),
      resolve.go ws b fuel links cur xs = .ok q → ws.get? q = some .dir →
      resolve.go ws' b fuel links cur xs = .ok q := by
  intro fuel
  induction fuel with
  | zero =>
    intro links cur xs q h
    simp [resolve.go] at h
  | succ f ih =>
    intro links cur xs q h hq
    cases xs with
    | nil =>
      rw [resolve.go.eq_2 _ _ _ _ _ (by omega)] at h ⊢
      exact h
    | cons c rest =>
      rw [resolve.go.eq_3] at h ⊢
      by_cases hskip : (c == "" || c == ".") = true
      · rw [if_pos hskip] at h ⊢
        exact ih links cur rest q h hq
      rw [if_neg hskip] at h ⊢
      by_cases hup : (c == "..") = true
      · rw [if_pos hup] at h ⊢
        exact ih links cur.dropLast rest q h hq
      rw [if_neg hup] at h ⊢
      rcases hn : ws.get? (cur ++ [c]) with _ | n
      · simp only [hn] at h
        cases stop_eq h
        simp [hn] at hq
      · cases n with
        | dir =>
          have hn' : ws'.get? (cur ++ [c]) = some .dir := by
            rw [hagree _ (by simp [hn, Node.leadsOn]), hn]
          simp only [hn, hn'] at h ⊢
          exact ih links (cur ++ [c]) rest q h hq
        | symlink target t =>
          have hn' : ws'.get? (cur ++ [c]) = some (.symlink target t) := by
            rw [hagree _ (by simp [hn, Node.leadsOn]), hn]
          simp only [hn, hn'] at h ⊢
          by_cases hstop : (rest.isEmpty && !b) = true
          · -- the link itself would be the answer, but the answer is a directory
            rw [if_pos hstop] at h
            cases h
            simp [hn] at hq
          rw [if_neg hstop] at h ⊢
          split at h
          · cases h
          · rw [if_neg ‹_›]
            exact ih (links + 1) _ _ q h hq
        | file _ _ | socket _ =>
          simp only [hn] at h
          cases stop_eq h
          simp [hn] at hq


/-- A path that leads, links followed, to the directory `O`. -/
def LeadsToDir (ws : Workspace) (p O : Path) : Prop :=
  ws.resolve p true = .ok O ∧ ws.get? O = some .dir

theorem resolve_append {root q : Path} (h : ws.LeadsToDir root q) (b : Bool) {ys : List String}
    (hys : ys ≠ []) :
    ∃ fuel links, 0 < fuel ∧
      ws.resolve (root ++ ys) b = resolve.go ws b (fuel + ys.length) links q ys := by
  have hroot := h.1
  unfold resolve at hroot ⊢
  obtain ⟨fuel, links, hpos, hgo⟩ := go_append b hys ys.length _ 0 [] root q hroot h.2
  refine ⟨fuel, links, hpos, ?_⟩
  rw [← hgo, List.length_append, Nat.add_right_comm]

/-- A name that is not `.`, `..` or empty, looked up in a directory, is that directory's
entry, unless it is a link that the lookup follows. -/
theorem go_child {q : Path} {c : String} (hc : c ≠ "" ∧ c ≠ "." ∧ c ≠ "..") {fuel : Nat}
    (hfuel : 0 < fuel) (links : Nat) {b : Bool}
    (hlink : b = false ∨ ∀ t m, ws.get? (q ++ [c]) ≠ some (.symlink t m)) :
    resolve.go ws b (fuel + 1) links q [c] = .ok (q ++ [c]) := by
  have hskip : (c == "" || c == ".") = false := by simp [hc.1, hc.2.1]
  have hup : (c == "..") = false := by simp [hc.2.2]
  rw [resolve.go.eq_3]
  simp only [hskip, hup, Bool.false_eq_true, if_false]
  rcases hn : ws.get? (q ++ [c]) with _ | n
  · rfl
  · cases n with
    | dir => exact resolve.go.eq_2 _ _ _ _ _ (by omega)
    | symlink t m =>
      rcases hlink with rfl | hlink
      · rfl
      · exact absurd hn (hlink t m)
    | file _ _ | socket _ => rfl

theorem resolve_child {P O : Path} (h : ws.LeadsToDir P O) {c : String}
    (hc : c ≠ "" ∧ c ≠ "." ∧ c ≠ "..") {b : Bool}
    (hlink : b = false ∨ ∀ t m, ws.get? (O ++ [c]) ≠ some (.symlink t m)) :
    ws.resolve (P ++ [c]) b = .ok (O ++ [c]) := by
  obtain ⟨fuel, links, hpos, hgo⟩ := resolve_append h b (List.cons_ne_nil c [])
  rw [hgo]
  exact go_child hc hpos links hlink

theorem LeadsToDir.child {P O : Path} (h : ws.LeadsToDir P O) {c : String}
    (hc : c ≠ "" ∧ c ≠ "." ∧ c ≠ "..") (hdir : ws.get? (O ++ [c]) = some .dir) :
    ws.LeadsToDir (P ++ [c]) (O ++ [c]) :=
  ⟨resolve_child h hc (.inr fun t m hl => by simp [hdir] at hl), hdir⟩

theorem resolve_through_missing {root q : Path} (h : ws.LeadsToDir root q) {c : String}
    (hc : c ≠ "" ∧ c ≠ "." ∧ c ≠ "..") (hmiss : ws.get? (q ++ [c]) = none) (d : String)
    (b : Bool) :
    ws.resolve (root ++ [c, d]) b = .error .notFound := by
  obtain ⟨fuel, links, -, hgo⟩ := resolve_append h b (List.cons_ne_nil c [d])
  have hskip : (c == "" || c == ".") = false := by simp [hc.1, hc.2.1]
  have hup : (c == "..") = false := by simp [hc.2.2]
  rw [hgo, show fuel + [c, d].length = (fuel + 1) + 1 by simp, resolve.go.eq_3]
  simp [hskip, hup, hmiss]

theorem stat_eq_ok {p : Path} {n : Node} (h : ws.stat p = .ok n) :
    ∃ O, ws.resolve p true = .ok O ∧ ws.get? O = some n := by
  unfold stat at h
  split at h
  · cases h
  · obtain ⟨O, hO, hget⟩ := Except.bind_eq_ok h
    refine ⟨O, hO, ?_⟩
    split at hget <;> cases hget
    assumption

theorem readDir_leadsToDir {p : Path} {entries : List (String × Node)}
    (h : ws.readDir p = .ok entries) : ∃ O, ws.LeadsToDir p O := by
  unfold readDir at h
  split at h
  · cases h
  · obtain ⟨O, hO, h⟩ := Except.bind_eq_ok h
    split at h
    · cases h
    · exact ⟨O, hO, ‹_›⟩
    · cases h

theorem isDir_leadsToDir {p : Path} (h : ws.isDir p = true) : ∃ O, ws.LeadsToDir p O := by
  unfold isDir at h
  split at h
  · next hstat => exact stat_eq_ok hstat
  · cases h

/-- A lookup that follows links on a tree-shaped file system never ends on a link: it stands
in a directory at every step, and answers with that directory or with a node it cannot pass
through. -/
theorem go_follow_not_link (h : ws.TreeShaped) :
    ∀ (fuel links : Nat) (cur : Path) (xs : List String) (q : Path),
      ws.get? cur = some .dir → resolve.go ws true fuel links cur xs = .ok q →
      ∀ t m, ws.get? q ≠ some (.symlink t m) := by
  intro fuel
  induction fuel with
  | zero =>
    intro links cur xs q _ hgo
    simp [resolve.go] at hgo
  | succ f ih =>
    intro links cur xs q hcur hgo t m
    cases xs with
    | nil =>
      rw [resolve.go.eq_2 _ _ _ _ _ (by omega)] at hgo
      cases hgo
      simp [hcur]
    | cons c rest =>
      rw [resolve.go.eq_3] at hgo
      by_cases hskip : (c == "" || c == ".") = true
      · rw [if_pos hskip] at hgo
        exact ih links cur rest q hcur hgo t m
      rw [if_neg hskip] at hgo
      by_cases hup : (c == "..") = true
      · rw [if_pos hup] at hgo
        -- the parent of a directory is a directory
        have hparent : ws.get? cur.dropLast = some .dir := by
          by_cases hnil : cur = []
          · simp [hnil]
          · exact h.parent (by simp [hcur]) hnil
        exact ih links cur.dropLast rest q hparent hgo t m
      rw [if_neg hup] at hgo
      rcases hn : ws.get? (cur ++ [c]) with _ | n
      · simp only [hn] at hgo
        cases stop_eq hgo
        simp [hn]
      · cases n with
        | dir =>
          simp only [hn] at hgo
          exact ih links (cur ++ [c]) rest q hn hgo t m
        | symlink target _ =>
          simp only [hn, Bool.not_true, Bool.and_false, Bool.false_eq_true, if_false] at hgo
          split at hgo
          · cases hgo
          · -- a link is read from the top directory or from the directory it stands in
            refine ih (links + 1) _ _ q ?_ hgo t m
            split
            · exact get?_nil
            · exact hcur
        | file _ _ | socket _ =>
          simp only [hn] at hgo
          cases stop_eq hgo
          simp [hn]

/-- A link whose target is its own name never leads anywhere: every lookup through it follows
it until the links run out. -/
theorem go_self_link {cur : Path} {c : String} {m : Time.Instant}
    (hc : c ≠ "" ∧ c ≠ "." ∧ c ≠ "..") (hlink : ws.get? (cur ++ [c]) = some (.symlink c m))
    (hpieces : Path.pieces c = [c]) (hrel : c.startsWith "/" = false) :
    ∀ fuel links, resolve.go ws true fuel links cur [c] = .error .loop := by
  have hskip : (c == "" || c == ".") = false := by simp [hc.1, hc.2.1]
  have hup : (c == "..") = false := by simp [hc.2.2]
  intro fuel
  induction fuel with
  | zero => intro links; rfl
  | succ f ih =>
    intro links
    rw [resolve.go.eq_3]
    simp only [hskip, hup, hlink, hpieces, hrel, Bool.false_eq_true, if_false, List.isEmpty_nil,
      Bool.not_true, Bool.and_false, List.append_nil]
    split
    · rfl
    · exact ih (links + 1)

/-- A lookup that leaves a last link alone, and does not end on one, ends where the lookup that
follows it does: the two differ only at a link in last place. -/
theorem go_follow_of_not_link :
    ∀ (fuel links : Nat) (cur : Path) (xs : List String) (q : Path),
      resolve.go ws false fuel links cur xs = .ok q → (∀ t m, ws.get? q ≠ some (.symlink t m)) →
      resolve.go ws true fuel links cur xs = .ok q := by
  intro fuel
  induction fuel with
  | zero =>
    intro links cur xs q h
    simp [resolve.go] at h
  | succ f ih =>
    intro links cur xs q h hq
    cases xs with
    | nil =>
      rw [resolve.go.eq_2 _ _ _ _ _ (by omega)] at h ⊢
      exact h
    | cons c rest =>
      rw [resolve.go.eq_3] at h ⊢
      by_cases hskip : (c == "" || c == ".") = true
      · rw [if_pos hskip] at h ⊢
        exact ih links cur rest q h hq
      rw [if_neg hskip] at h ⊢
      by_cases hup : (c == "..") = true
      · rw [if_pos hup] at h ⊢
        exact ih links cur.dropLast rest q h hq
      rw [if_neg hup] at h ⊢
      rcases hn : ws.get? (cur ++ [c]) with _ | n
      · simpa only [hn] using h
      · cases n with
        | dir =>
          simp only [hn] at h ⊢
          exact ih links (cur ++ [c]) rest q h hq
        | symlink target t =>
          simp only [hn] at h ⊢
          by_cases hlast : rest.isEmpty = true
          · -- left alone, the link would be the answer
            simp only [hlast, Bool.not_false, Bool.and_self, if_true] at h
            cases h
            exact absurd hn (hq target t)
          · simp only [hlast, Bool.false_and, Bool.false_eq_true, if_false] at h ⊢
            split at h
            · cases h
            · rw [if_neg ‹_›]
              exact ih (links + 1) _ _ q h hq
        | file _ _ | socket _ => simpa only [hn] using h

theorem stat_of_lstat {p : Path} {n : Node} (h : ws.lstat p = .ok n)
    (hn : ∀ t m, n ≠ .symlink t m) : ws.stat p = .ok n := by
  unfold lstat at h
  unfold stat
  split at h
  · cases h
  · next htoo =>
    obtain ⟨q, hq, hget⟩ := Except.bind_eq_ok h
    have hq' : ws.get? q = some n := by
      split at hget <;> cases hget
      assumption
    have hfollow : ws.resolve p true = .ok q :=
      go_follow_of_not_link _ _ _ _ _ hq fun t m hl => hn t m (by simpa [hq'] using hl)
    simp [htoo, hfollow, hq', bind, Except.bind, pure, Except.pure]

theorem resolve_follow_not_link (h : ws.TreeShaped) {p q : Path}
    (hp : ws.resolve p true = .ok q) : ∀ t m, ws.get? q ≠ some (.symlink t m) :=
  go_follow_not_link h _ _ [] p q get?_nil hp

/-- A lookup that ends in a directory is not changed by changing nodes it could not pass
through. -/
theorem resolve_frame (hagree : ∀ p, (ws.get? p).any Node.leadsOn = true → ws'.get? p = ws.get? p)
    {p q : Path} {b : Bool} (h : ws.resolve p b = .ok q) (hq : ws.get? q = some .dir) :
    ws'.resolve p b = .ok q :=
  go_frame hagree b _ _ _ _ _ h hq

theorem LeadsToDir.frame
    (hagree : ∀ p, (ws.get? p).any Node.leadsOn = true → ws'.get? p = ws.get? p) {p O : Path}
    (h : ws.LeadsToDir p O) : ws'.LeadsToDir p O :=
  ⟨resolve_frame hagree h.1 h.2, by rw [hagree O (by simp [h.2, Node.leadsOn]), h.2]⟩

theorem leadsOn_put {X : Path} (hX : (ws.get? X).any Node.leadsOn = false) (n : Node) :
    ∀ p, (ws.get? p).any Node.leadsOn = true → (ws.put X n).get? p = ws.get? p := by
  intro p hp
  by_cases hXnil : X = []
  · simp [hXnil, Node.leadsOn] at hX
  rw [get?_put hXnil]
  split
  · next hpX =>
    subst hpX
    rw [hX] at hp
    cases hp
  · rfl

theorem LeadsToDir.mkdir {root q : Path} (h : ws.LeadsToDir root q) {c : String}
    (hc : c ≠ "" ∧ c ≠ "." ∧ c ≠ "..") (hn : ws.get? (q ++ [c]) = none) :
    (ws.put (q ++ [c]) .dir).LeadsToDir (root ++ [c]) (q ++ [c]) :=
  (h.frame (leadsOn_put (by simp [hn]) .dir)).child hc (by rw [get?_put (by simp)]; simp)

theorem leadsOn_eq_false {X : Path} (hdir : ws.get? X ≠ some .dir)
    (hlink : ∀ t m, ws.get? X ≠ some (.symlink t m)) : (ws.get? X).any Node.leadsOn = false := by
  rcases hX : ws.get? X with _ | n
  · rfl
  · cases n with
    | dir => exact absurd hX hdir
    | symlink t m => exact absurd hX (hlink t m)
    | file _ _ | socket _ => rfl

/-- On a tree-shaped file system, nothing a lookup passes through lies at or below a node it
cannot pass through. -/
theorem TreeShaped.not_prefix (h : ws.TreeShaped) {X p : Path}
    (hX : (ws.get? X).any Node.leadsOn = false) (hp : (ws.get? p).any Node.leadsOn = true) :
    ¬ X <+: p := by
  intro hXp
  have hdir : ws.get? X ≠ some .dir := by
    intro hd
    simp [hd, Node.leadsOn] at hX
  by_cases hpnil : p = []
  · -- the top directory is below nothing but itself
    subst hpnil
    rw [List.prefix_nil.mp hXp] at hdir
    exact hdir get?_nil
  have hsome : (ws.get? p).isSome := by
    cases hq : ws.get? p <;> simp_all
  obtain ⟨x, hx, hx1⟩ := exists_mem_of_isSome hsome hpnil
  have := h.nothing_below hdir hx (hx1 ▸ hXp)
  rw [← hx1, this, hX] at hp
  cases hp

end Workspace

end ComponentSync
