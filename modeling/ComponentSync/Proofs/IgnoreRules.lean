import ComponentSync.Proofs.ArchiveNames
import ComponentSync.Sync.Plan
/-! Ignore rules on paths. A path whose components are names (not empty, not `.`, `..` allowed)
splits back into those components, so a rule set ignores it exactly when one of its rules hits
one of the path's prefixes; hence a path below an ignored path is ignored too
(`RuleSet.isIgnored_below`), which is why a walk may skip an ignored directory whole. Every rule
set the tool builds starts with the built-in rules, and these ignore `.odo` and everything below
it, the directory where the index lives. -/
namespace ComponentSync

/-! ### Splitting a path -/

/-- A component of a `/`-joined path as the rules read it: not empty, not `.`, and without `/`.
Unlike a valid name it may be `..`. -/
def Path.IsComponent (c : String) : Prop :=
  c ≠ "" ∧ c ≠ "." ∧ '/' ∉ c.toList

instance : DecidablePred Path.IsComponent := fun c =>
  inferInstanceAs (Decidable (c ≠ "" ∧ c ≠ "." ∧ '/' ∉ c.toList))

theorem Path.isComponent_of_validName {c : String} (h : Path.validName c = true) :
    Path.IsComponent c :=
  ⟨Path.validName_ne_empty h, Path.validName_ne_dot h, Path.validName_no_slash h⟩

section Split

variable {parts : List String}

theorem dropLeadingPair_name_append {c : String} (hc : Path.IsComponent c) {t : List Char}
    (ht : t = [] ∨ t.head? = some '/') :
    Text.dropLeadingPair '.' '/' (c.toList ++ t) = c.toList ++ t := by
  obtain ⟨hempty, hdot, hslash⟩ := hc
  rcases hcs : c.toList with _ | ⟨x, _ | ⟨y, ys⟩⟩
  · exact absurd (String.toList_eq_nil_iff.mp hcs) hempty
  · -- a one-letter name is not `.`, so a slash after it starts no `./`
    rcases ht with rfl | ht
    · rfl
    · obtain ⟨t', rfl⟩ : ∃ t', t = '/' :: t' := by
        cases t with
        | nil => cases ht
        | cons z t' => cases ht; exact ⟨t', rfl⟩
      have hx : x ≠ '.' := by
        rintro rfl
        exact hdot (String.ext (by simpa using hcs))
      simp [Text.dropLeadingPair, hx]
  · have hy : y ≠ '/' := fun h => hslash (by simp [hcs, h])
    simp [Text.dropLeadingPair, hy]

theorem dropLeadingPair_intercalate (hne : parts ≠ [])
    (hv : ∀ c ∈ parts, Path.IsComponent c) :
    Text.dropLeadingPair '.' '/' ("/".intercalate parts).toList = ("/".intercalate parts).toList := by
  obtain ⟨c, rest, rfl⟩ := List.exists_cons_of_ne_nil hne
  have hc := hv c List.mem_cons_self
  cases rest with
  | nil => simpa using dropLeadingPair_name_append hc (.inl rfl)
  | cons d rest =>
    rw [String.intercalate_cons_cons, String.append_assoc, String.toList_append]
    exact dropLeadingPair_name_append hc (.inr (by simp))

theorem head_intercalate_ne_slash (hne : parts ≠ []) (hv : ∀ c ∈ parts, Path.IsComponent c) :
    ∃ x xs, ("/".intercalate parts).toList = x :: xs ∧ x ≠ '/' := by
  obtain ⟨c, rest, rfl⟩ := List.exists_cons_of_ne_nil hne
  obtain ⟨hempty, -, hslash⟩ := hv c List.mem_cons_self
  obtain ⟨t, ht⟩ := Path.toList_intercalate_cons c rest
  rcases hcs : c.toList with _ | ⟨x, xs⟩
  · exact absurd (String.toList_eq_nil_iff.mp hcs) hempty
  · refine ⟨x, xs ++ t, by rw [ht, hcs]; rfl, fun h => hslash ?_⟩
    simp [hcs, h]

theorem last_intercalate_ne_slash (hne : parts ≠ []) (hv : ∀ c ∈ parts, Path.IsComponent c) :
    ∃ x xs, ("/".intercalate parts).toList.reverse = x :: xs ∧ x ≠ '/' := by
  obtain ⟨t, ht⟩ := Path.toList_intercalate_getLast parts hne
  obtain ⟨hempty, -, hslash⟩ := hv _ (List.getLast_mem hne)
  rcases hcs : (parts.getLast hne).toList.reverse with _ | ⟨x, xs⟩
  · exact absurd (String.toList_eq_nil_iff.mp (List.reverse_eq_nil_iff.mp hcs)) hempty
  · refine ⟨x, xs ++ t.reverse, by rw [ht, List.reverse_append, hcs]; rfl, fun h => hslash ?_⟩
    have : x ∈ (parts.getLast hne).toList.reverse := by simp [hcs]
    simpa [h] using this

theorem pathComponents_intercalate (hne : parts ≠ []) (hv : ∀ c ∈ parts, Path.IsComponent c) :
    pathComponents ("/".intercalate parts) = parts := by
  obtain ⟨x, xs, hhead, hx⟩ := head_intercalate_ne_slash hne hv
  obtain ⟨y, ys, hlast, hy⟩ := last_intercalate_ne_slash hne hv
  have hlead : Text.dropLeading '/' (String.ofList (Text.dropLeadingPair '.' '/'
      ("/".intercalate parts).toList)) = "/".intercalate parts := by
    rw [dropLeadingPair_intercalate hne hv]
    unfold Text.dropLeading
    rw [String.toList_ofList, hhead, List.dropWhile_cons_of_neg (by simpa using hx), ← hhead,
      String.ofList_toList]
  have htrail : Text.dropTrailing '/' ("/".intercalate parts) = "/".intercalate parts := by
    unfold Text.dropTrailing
    rw [hlast, List.dropWhile_cons_of_neg (by simpa using hy), ← hlast, List.reverse_reverse,
      String.ofList_toList]
  have hnonempty : ("/".intercalate parts).isEmpty = false := by
    simp [← String.toList_inj, hhead]
  unfold pathComponents
  simp only [hlead, htrail, hnonempty, Bool.false_eq_true, if_false]
  exact Path.pieces_intercalate_of_no_slash hne fun c hc => (hv c hc).2.2

end Split

/-! ### Ignoring a key -/

section Keys

variable (rules : RuleSet) {parts : List String}

/-- A rule set ignores a path made of components when one of its rules hits one of the path's
prefixes: anchored rules see the prefix, the others its last component. -/
theorem isIgnored_intercalate_iff (hne : parts ≠ []) (hv : ∀ c ∈ parts, Path.IsComponent c) :
    rules.isIgnored ("/".intercalate parts) = true ↔
      ∃ i < parts.length, ∃ r ∈ rules.rules,
        r.hits ("/".intercalate (parts.take (i + 1))) ((parts.take (i + 1)).getLast?.getD "") =
          true := by
  simp [RuleSet.isIgnored, pathComponents_intercalate hne hv]

/-- A path below an ignored path is ignored: the rule that hit the shorter path hits the same
prefix of the longer one. -/
theorem isIgnored_append_of_components {more : List String} (hne : parts ≠ [])
    (hv : ∀ c ∈ parts ++ more, Path.IsComponent c)
    (h : rules.isIgnored ("/".intercalate parts) = true) :
    rules.isIgnored ("/".intercalate (parts ++ more)) = true := by
  have hv' : ∀ c ∈ parts, Path.IsComponent c := fun c hc => hv c (List.mem_append_left _ hc)
  obtain ⟨i, hi, r, hr, hhit⟩ := (isIgnored_intercalate_iff rules hne hv').mp h
  have htake : (parts ++ more).take (i + 1) = parts.take (i + 1) :=
    List.take_append_of_le_length (by omega)
  refine (isIgnored_intercalate_iff rules (by simp [hne]) hv).mpr ⟨i, ?_, r, hr, ?_⟩
  · simp only [List.length_append]
    omega
  · rwa [htake]

theorem isIgnored_append {more : List String} (hne : parts ≠ [])
    (hv : ∀ c ∈ parts ++ more, Path.validName c = true)
    (h : rules.isIgnored ("/".intercalate parts) = true) :
    rules.isIgnored ("/".intercalate (parts ++ more)) = true :=
  isIgnored_append_of_components rules hne (fun c hc => Path.isComponent_of_validName (hv c hc)) h

end Keys

@[simp] theorem RuleSet.isIgnored_empty (rules : RuleSet) : rules.isIgnored "" = false := by
  simp [RuleSet.isIgnored, pathComponents, Text.dropLeadingPair, Text.dropLeading,
    Text.dropTrailing]

/-! ### The built-in rules -/

/-- The built-in rule for the tool's directory: the literal name `.odo`, matched against the
last name of each prefix. -/
def toolDirRule : IgnoreRule :=
  ⟨".odo", ⟨[.literal '.', .literal 'o', .literal 'd', .literal 'o']⟩, false⟩

theorem parse_toolDir : IgnoreRule.parse toolDir = .ok toolDirRule := by
  have h : (IgnoreRule.parse toolDir).toOption.map (fun r => (r.raw, r.pattern, r.anchored)) =
      some (".odo", ⟨[.literal '.', .literal 'o', .literal 'd', .literal 'o']⟩, false) := by
    decide +kernel
  rcases hp : IgnoreRule.parse toolDir with e | ⟨raw, p, a⟩ <;>
    simp_all [Except.toOption, toolDirRule]

theorem toolDirRule_mem_builtin : toolDirRule ∈ RuleSet.builtin.rules := by
  have hodo : IgnoreRule.parse ".odo" = .ok toolDirRule := parse_toolDir
  simp [RuleSet.builtin, builtinIgnores, hodo, Except.toOption]

theorem toolDirRule_hits (prefixPath : String) : toolDirRule.hits prefixPath toolDir = true := by
  simp [toolDirRule, toolDir, IgnoreRule.hits, Glob.Pattern.matches, Glob.matchTokens,
    Glob.Token.isRun, Glob.Token.accepts]

/-- A rule set that starts with the built-in rules, as every rule set the tool builds does. -/
def RuleSet.KeepsBuiltins (rules : RuleSet) : Prop :=
  RuleSet.builtin.rules <+: rules.rules

theorem RuleSet.keepsBuiltins_builtin : RuleSet.builtin.KeepsBuiltins :=
  List.prefix_refl _

theorem RuleSet.extend_prefix {set set' : RuleSet} {lines : List String}
    (h : set.extend lines = .ok set') : set.rules <+: set'.rules := by
  refine List.foldlM_except_inv (fun acc : RuleSet => set.rules <+: acc.rules) ?_
    (List.prefix_refl _) h
  intro acc line acc' _ hacc hstep
  dsimp only at hstep
  split at hstep
  · cases hstep
    exact hacc
  · split at hstep
    · cases hstep
      exact hacc.trans (List.prefix_append _ _)
    · cases hstep

theorem RuleSet.KeepsBuiltins.extend {set set' : RuleSet} (h : set.KeepsBuiltins)
    {lines : List String} (he : set.extend lines = .ok set') : set'.KeepsBuiltins :=
  h.trans (RuleSet.extend_prefix he)

theorem RuleSet.KeepsBuiltins.extendLines {set set' : RuleSet} (h : set.KeepsBuiltins)
    {lines : List String} (he : set.extendLines lines = .ok set') : set'.KeepsBuiltins := by
  unfold RuleSet.extendLines at he
  rcases hx : set.extend lines with e | s <;> rw [hx] at he
  · cases he
  · cases he
    exact h.extend hx

theorem RuleSet.ofLines_keepsBuiltins {lines : List String} {set : RuleSet}
    (h : RuleSet.ofLines lines = .ok set) : set.KeepsBuiltins :=
  RuleSet.keepsBuiltins_builtin.extend h

theorem RuleSet.loadFromDir_keepsBuiltins {ws : Workspace} {root : Path} {set : RuleSet}
    (h : RuleSet.loadFromDir ws root = .ok set) : set.KeepsBuiltins := by
  unfold RuleSet.loadFromDir at h
  split at h
  · cases h
    exact RuleSet.keepsBuiltins_builtin
  · dsimp only at h
    split at h
    · cases h
    · exact RuleSet.keepsBuiltins_builtin.extendLines h

/-- The tool's directory, and everything below it, is ignored by every rule set that keeps the
built-in rules. -/
theorem RuleSet.KeepsBuiltins.ignores_toolDir {rules : RuleSet} (h : rules.KeepsBuiltins)
    {more : List String} (hv : ∀ c ∈ more, Path.validName c = true) :
    rules.isIgnored ("/".intercalate (toolDir :: more)) = true := by
  have hvalid : ∀ c ∈ toolDir :: more, Path.validName c = true := by
    intro c hc
    rcases List.mem_cons.mp hc with rfl | hc
    · decide
    · exact hv c hc
  refine (isIgnored_intercalate_iff rules (List.cons_ne_nil _ _)
    fun c hc => Path.isComponent_of_validName (hvalid c hc)).mpr
    ⟨0, by simp, toolDirRule, h.subset toolDirRule_mem_builtin, ?_⟩
  simpa using toolDirRule_hits toolDir

theorem RuleSet.builtin_ignores_toolDir : RuleSet.builtin.isIgnored toolDir = true := by
  have h : RuleSet.builtin.isIgnored ("/".intercalate [toolDir]) = true :=
    RuleSet.keepsBuiltins_builtin.ignores_toolDir (by simp)
  simpa using h

theorem Glob.matchTokens_literals (afterSep : Bool) (cs ds : List Char) :
    Glob.matchTokens afterSep (cs.map .literal) ds = .matched ↔ ds = cs := by
  induction cs generalizing afterSep ds with
  | nil => cases ds <;> simp [Glob.matchTokens]
  | cons c cs ih =>
    cases ds with
    | nil => simp [Glob.matchTokens, Glob.Token.isRun]
    | cons d ds =>
      by_cases h : d = c
      · simp [Glob.matchTokens, Glob.Token.isRun, Glob.Token.accepts, h, ih]
      · simp [Glob.matchTokens, Glob.Token.isRun, Glob.Token.accepts, h]

/-- A rule that is not anchored and whose pattern is a literal name hits the paths whose last
name is that name. -/
theorem IgnoreRule.hits_literal {r : IgnoreRule} {name : String}
    (hp : r.pattern.tokens = name.toList.map .literal) (ha : r.anchored = false)
    (prefixPath lastPart : String) : r.hits prefixPath lastPart = true ↔ lastPart = name := by
  simp [IgnoreRule.hits, ha, Glob.Pattern.matches, hp, Glob.matchTokens_literals,
    String.toList_inj]

def gitDirRule : IgnoreRule :=
  ⟨".git", ⟨[.literal '.', .literal 'g', .literal 'i', .literal 't']⟩, false⟩

theorem parse_gitDir : IgnoreRule.parse ".git" = .ok gitDirRule := by
  have h : (IgnoreRule.parse ".git").toOption.map (fun r => (r.raw, r.pattern, r.anchored)) =
      some (".git", ⟨[.literal '.', .literal 'g', .literal 'i', .literal 't']⟩, false) := by
    decide +kernel
  rcases hp : IgnoreRule.parse ".git" with e | ⟨raw, p, a⟩ <;>
    simp_all [Except.toOption, gitDirRule]

theorem RuleSet.builtin_rules : RuleSet.builtin.rules = [gitDirRule, toolDirRule] := by
  have hodo : IgnoreRule.parse ".odo" = .ok toolDirRule := parse_toolDir
  simp [RuleSet.builtin, builtinIgnores, parse_gitDir, hodo, Except.toOption]

theorem exists_last_take_iff (parts : List String) (P : String → Prop) :
    (∃ i < parts.length, P ((parts.take (i + 1)).getLast?.getD "")) ↔ ∃ c ∈ parts, P c := by
  constructor
  · rintro ⟨i, hi, h⟩
    refine ⟨parts[i], List.getElem_mem hi, ?_⟩
    simpa [List.getLast?_take, List.getElem?_eq_getElem hi] using h
  · rintro ⟨c, hc, h⟩
    obtain ⟨i, hi, rfl⟩ := List.mem_iff_getElem.mp hc
    exact ⟨i, hi, by simpa [List.getLast?_take, List.getElem?_eq_getElem hi] using h⟩

/-- The built-in rules ignore exactly the keys that have git's or the tool's directory among
their names. -/
theorem RuleSet.builtin_isIgnored_iff {parts : List String} (hne : parts ≠ [])
    (hv : ∀ c ∈ parts, Path.validName c = true) :
    RuleSet.builtin.isIgnored ("/".intercalate parts) = true ↔
      ".git" ∈ parts ∨ toolDir ∈ parts := by
  have hgit : ∀ pre last, gitDirRule.hits pre last = true ↔ last = ".git" :=
    IgnoreRule.hits_literal rfl rfl
  have hodo : ∀ pre last, toolDirRule.hits pre last = true ↔ last = toolDir :=
    IgnoreRule.hits_literal rfl rfl
  rw [isIgnored_intercalate_iff _ hne fun c hc => Path.isComponent_of_validName (hv c hc),
    RuleSet.builtin_rules]
  simp only [List.mem_cons, List.not_mem_nil, or_false, exists_eq_or_imp, exists_eq_left, hgit,
    hodo]
  rw [exists_last_take_iff parts fun c => c = ".git" ∨ c = toolDir]
  constructor
  · rintro ⟨c, hc, rfl | rfl⟩
    · exact .inl hc
    · exact .inr hc
  · rintro (hc | hc)
    · exact ⟨_, hc, .inl rfl⟩
    · exact ⟨_, hc, .inr rfl⟩

theorem RuleSet.builtin_keeps_name {c : String} (hv : Path.validName c = true)
    (hgit : c ≠ ".git") (hodo : c ≠ toolDir) : RuleSet.builtin.isIgnored c = false := by
  have h : RuleSet.builtin.isIgnored ("/".intercalate [c]) = true ↔
      ".git" ∈ [c] ∨ toolDir ∈ [c] :=
    RuleSet.builtin_isIgnored_iff (List.cons_ne_nil c []) (by simpa using hv)
  simp only [String.intercalate_singleton, List.mem_singleton] at h
  cases hign : RuleSet.builtin.isIgnored c
  · rfl
  · rcases h.mp hign with h | h
    · exact absurd h.symm hgit
    · exact absurd h.symm hodo

/-! ### Below an ignored path -/

/-- Ignoring a path ignores everything below it: for paths `p` and `q` whose components are
names, not empty and not `.`, a rule set that ignores `p` ignores `p/q`. -/
theorem RuleSet.isIgnored_below (rules : RuleSet) {ps qs : List String} (hps : ps ≠ [])
    (hqs : qs ≠ []) (hv : ∀ c ∈ ps ++ qs, Path.IsComponent c)
    (h : rules.isIgnored ("/".intercalate ps) = true) :
    rules.isIgnored ("/".intercalate ps ++ "/" ++ "/".intercalate qs) = true := by
  rw [← String.intercalate_append_of_ne_nil hps hqs]
  exact isIgnored_append_of_components rules hps hv h

/-- The built-in rules ignore `.odo/../a.txt`, read as a path below `.odo`, although the file it
leads to, `a.txt`, is kept: the rules read a path by its text. -/
theorem RuleSet.builtin_ignores_below_toolDir :
    [toolDir] ≠ [] ∧ ["..", "a.txt"] ≠ [] ∧
      (∀ c ∈ [toolDir] ++ ["..", "a.txt"], Path.IsComponent c) ∧
      RuleSet.builtin.isIgnored ("/".intercalate [toolDir]) = true ∧
      RuleSet.builtin.isIgnored
        ("/".intercalate [toolDir] ++ "/" ++ "/".intercalate ["..", "a.txt"]) = true := by
  have hv : ∀ c ∈ [toolDir] ++ ["..", "a.txt"], Path.IsComponent c := by decide
  have h : RuleSet.builtin.isIgnored ("/".intercalate [toolDir]) = true := by
    simpa using RuleSet.builtin_ignores_toolDir
  exact ⟨by simp, by simp, hv, h,
    RuleSet.isIgnored_below RuleSet.builtin (List.cons_ne_nil _ _) (List.cons_ne_nil _ _) hv h⟩

end ComponentSync
