import Mathlib
import ComponentSync.Config.Parameters
/-! The laws of the named parameters. `ComponentSettings.Sets` is the parameter table as a
relation, one case a parameter; `ComponentSettings.apply` succeeds exactly along it
(`apply_eq_ok_iff`). From it: setting a value succeeds exactly when the parameter accepts it
(`apply_some_ok_iff`), and clearing exactly when the parameter exists (`apply_none_ok_iff`); a set
parameter shows its value in normal form (`get_apply_some`), a cleared one its default
(`get_apply_none`), and the other parameters show what they showed (`get_apply_other`), but that
the destination follows the name and the build's working directory goes with its command. -/
namespace ComponentSync

def parameterNames : List String := supportedParameters.map Prod.fst

/-- What setting (`some`) or clearing (`none`) one parameter does to the settings, one case a
parameter; the parameter is named by `key` in any ASCII case. -/
inductive ComponentSettings.Sets (s : ComponentSettings) (key : String) :
    Option String → ComponentSettings → Prop
  | name (v : Option String) : asciiLower key = "name" → Sets s key v { s with name := v }
  | application (v : Option String) : asciiLower key = "application" →
      Sets s key v { s with application := v.getD "app" }
  | project (v : Option String) : asciiLower key = "project" → Sets s key v { s with project := v }
  | sourceType {x : String} {t : SourceType} : asciiLower key = "sourcetype" →
      SourceType.parse x = .ok t → Sets s key (some x) { s with sourceType := t }
  | sourceTypeCleared : asciiLower key = "sourcetype" → Sets s key none { s with sourceType := .local_ }
  | sourcePath (v : Option String) : asciiLower key = "sourcepath" →
      Sets s key v { s with sourcePath := v }
  | image (v : Option String) : asciiLower key = "image" → Sets s key v { s with image := v }
  | destination (v : Option String) : asciiLower key = "destination" →
      Sets s key v { s with destination := v }
  | mirrorRoots (v : Option String) : asciiLower key = "mirrorroots" →
      Sets s key v { s with mirrorRoots := splitList v }
  | buildCommand (v : Option String) : asciiLower key = "buildcommand" →
      Sets s key v { s with build := v.map fun c => ⟨c, s.build.bind (·.workdir)⟩ }
  | buildWorkdir (v : Option String) {b : CommandSpec} : asciiLower key = "buildworkdir" →
      s.build = some b → Sets s key v { s with build := some { b with workdir := v } }
  | buildWorkdirUnbuilt : asciiLower key = "buildworkdir" → s.build = none → Sets s key none s
  | runCommand (v : Option String) : asciiLower key = "runcommand" →
      Sets s key v { s with run := v.map fun c => ⟨c, none⟩ }
  | reloadCommand (v : Option String) : asciiLower key = "reloadcommand" →
      Sets s key v { s with reload := v.map fun c => ⟨c, none⟩ }
  | ports (v : Option String) {ports : List Nat} : asciiLower key = "ports" →
      (splitList v).mapM (readUnsigned maxPort) = .ok ports → Sets s key v { s with ports := ports }
  | ignore (v : Option String) : asciiLower key = "ignore" →
      Sets s key v { s with ignores := splitList v }
  | storageSize (v : Option String) : asciiLower key = "storagesize" →
      Sets s key v { s with storageSize := v.getD "1Gi" }

section Apply

variable {s s' : ComponentSettings} {key : String} {v : Option String}

/-- A list is read by reading each item in turn: it is read as `r` when each item is read as
the item of `r` at its place. -/
theorem mapM_eq_ok_iff {α β ε : Type} {f : α → Except ε β} :
    ∀ (l : List α) (r : List β), l.mapM f = .ok r ↔ List.Forall₂ (fun x y => f x = .ok y) l r
  | [], r => by
    simp only [List.mapM_nil, List.forall₂_nil_left_iff]
    exact ⟨fun h => (Except.ok.inj h).symm, fun h => h ▸ rfl⟩
  | x :: l, r => by
    rw [List.mapM_cons, List.forall₂_cons_left_iff]
    cases hx : f x with
    | error e => simp [bind, Except.bind]
    | ok a =>
      cases hl : l.mapM f with
      | error e =>
        simp only [bind, Except.bind, reduceCtorEq, false_iff, not_exists, not_and]
        intro b r' hab hr' _
        have := (mapM_eq_ok_iff l r').mpr hr'
        rw [hl] at this
        cases this
      | ok rest =>
        have hrest := mapM_eq_ok_iff (f := f) l rest
        simp only [bind, Except.bind, pure, Except.pure, Except.ok.injEq]
        constructor
        · rintro rfl
          exact ⟨a, rest, rfl, hrest.mp hl, rfl⟩
        · rintro ⟨b, r', hab, hr', rfl⟩
          cases hab
          rw [(mapM_eq_ok_iff l r').mpr hr'] at hl
          cases hl
          rfl

theorem mapM_mapError_eq_ok {α β ε ε' : Type} {f : α → Except ε β} {g : α → ε → ε'}
    (l : List α) (r : List β) :
    l.mapM (fun x => (f x).mapError (g x)) = .ok r ↔ l.mapM f = .ok r := by
  rw [mapM_eq_ok_iff, mapM_eq_ok_iff]
  have hstep : ∀ x y, (f x).mapError (g x) = .ok y ↔ f x = .ok y := by
    intro x y
    cases f x <;> simp [Except.mapError]
  simp only [hstep]

theorem ComponentSettings.sets_of_apply (h : s.apply key v = .ok s') : s.Sets key v s' := by
  unfold ComponentSettings.apply at h
  split at h
  all_goals simp only [Except.ok.injEq] at h
  · next hk => subst h; exact .name v hk
  · next hk => subst h; exact .application v hk
  · next hk => subst h; exact .project v hk
  · next hk =>
    cases v with
    | none => cases h; exact .sourceTypeCleared hk
    | some x =>
      cases hp : SourceType.parse x <;> simp only [hp, Except.map, Except.mapError, reduceCtorEq,
        Except.ok.injEq] at h
      subst h
      exact .sourceType hk hp
  · next hk => subst h; exact .sourcePath v hk
  · next hk => subst h; exact .image v hk
  · next hk => subst h; exact .destination v hk
  · next hk => subst h; exact .mirrorRoots v hk
  · next hk => subst h; exact .buildCommand v hk
  · next hk =>
    split at h
    · next b _ hb => cases h; exact .buildWorkdir _ hk hb
    · next hb => cases h; exact .buildWorkdirUnbuilt hk hb
    · cases h
  · next hk => subst h; exact .runCommand v hk
  · next hk => subst h; exact .reloadCommand v hk
  · next hk =>
    simp only [Except.map] at h
    split at h
    · cases h
    · next ports hm =>
      cases h
      exact .ports v hk ((mapM_mapError_eq_ok _ _).mp hm)
  · next hk => subst h; exact .ignore v hk
  · next hk => subst h; exact .storageSize v hk
  · cases h

theorem ComponentSettings.apply_of_sets (h : s.Sets key v s') : s.apply key v = .ok s' := by
  cases h with
  | sourceType hk hp => simp [ComponentSettings.apply, hk, hp, Except.map, Except.mapError]
  | buildWorkdir v hk hb => simp [ComponentSettings.apply, hk, hb]
  | buildWorkdirUnbuilt hk hb => simp [ComponentSettings.apply, hk, hb]
  | ports v hk hp =>
    simp [ComponentSettings.apply, hk, (mapM_mapError_eq_ok _ _).mpr hp, Except.map]
  | application v hk => simp [ComponentSettings.apply, hk]; rfl
  | _ => simp [ComponentSettings.apply, *]

theorem ComponentSettings.apply_eq_ok_iff : s.apply key v = .ok s' ↔ s.Sets key v s' :=
  ⟨sets_of_apply, apply_of_sets⟩

end Apply

/-! ### Which values are accepted -/

theorem mapM_ok_iff {α β ε : Type} {f : α → Except ε β} (l : List α) :
    (∃ r, l.mapM f = .ok r) ↔ ∀ x ∈ l, ∃ y, f x = .ok y := by
  simp only [mapM_eq_ok_iff]
  induction l with
  | nil => exact ⟨fun _ x hx => absurd hx List.not_mem_nil, fun _ => ⟨[], .nil⟩⟩
  | cons x l ih =>
    simp only [List.forall₂_cons_left_iff, List.mem_cons, forall_eq_or_imp]
    constructor
    · rintro ⟨_, y, r, hy, hr, rfl⟩
      exact ⟨⟨y, hy⟩, ih.mp ⟨r, hr⟩⟩
    · rintro ⟨⟨y, hy⟩, hl⟩
      obtain ⟨r, hr⟩ := ih.mpr hl
      exact ⟨y :: r, y, r, hy, hr, rfl⟩

theorem SourceType.parse_eq_ok_iff {x : String} {t : SourceType} :
    SourceType.parse x = .ok t ↔ t.name = asciiLower x := by
  have hlower : String.ofList (x.toList.map Char.toLower) = asciiLower x := rfl
  unfold SourceType.parse
  simp only [hlower]
  split
  · next h => rw [h]; cases t <;> simp [SourceType.name]
  · next h => rw [h]; cases t <;> simp [SourceType.name]
  · next h => rw [h]; cases t <;> simp [SourceType.name]
  · next hl hb hg =>
    simp only [reduceCtorEq, false_iff]
    intro ht
    cases t <;> simp_all [SourceType.name]

theorem SourceType.parse_ok_iff {x : String} :
    (∃ t, SourceType.parse x = .ok t) ↔ asciiLower x ∈ ["local", "binary", "git"] := by
  simp only [SourceType.parse_eq_ok_iff]
  constructor
  · rintro ⟨t, ht⟩
    cases t <;> simp [← ht, SourceType.name]
  · simp only [List.mem_cons, List.not_mem_nil, or_false]
    rintro (h | h | h)
    · exact ⟨.local_, h.symm⟩
    · exact ⟨.binary, h.symm⟩
    · exact ⟨.git, h.symm⟩

/-- Whether the parameter `key` accepts `value`: the parameter exists, a source type is one of
the three names in any ASCII case, every item of a list of ports is a port number, and a build's
working directory needs a build command. -/
def ComponentSettings.Accepts (s : ComponentSettings) (key value : String) : Prop :=
  asciiLower key ∈ parameterNames ∧
  (asciiLower key = "sourcetype" → asciiLower value ∈ ["local", "binary", "git"]) ∧
  (asciiLower key = "ports" → ∀ raw ∈ splitList (some value), ∃ n, readUnsigned maxPort raw = .ok n) ∧
  (asciiLower key = "buildworkdir" → s.build.isSome = true)

section Accepts

variable {s : ComponentSettings} {key value : String}

theorem mem_parameterNames {n : String} :
    n ∈ parameterNames ↔ n = "name" ∨ n = "application" ∨ n = "project" ∨ n = "sourcetype" ∨
      n = "sourcepath" ∨ n = "image" ∨ n = "destination" ∨ n = "mirrorroots" ∨
      n = "buildcommand" ∨ n = "buildworkdir" ∨ n = "runcommand" ∨ n = "reloadcommand" ∨
      n = "ports" ∨ n = "ignore" ∨ n = "storagesize" := by
  simp only [parameterNames, supportedParameters, List.map_cons, List.map_nil, List.mem_cons,
    List.not_mem_nil, or_false]

theorem ComponentSettings.apply_some_ok_iff :
    (∃ s', s.apply key (some value) = .ok s') ↔ s.Accepts key value := by
  simp only [ComponentSettings.apply_eq_ok_iff]
  constructor
  · rintro ⟨s', h⟩
    cases h with
    | sourceType hk hp =>
      simp only [ComponentSettings.Accepts, hk]
      exact ⟨by simp [mem_parameterNames], fun _ => SourceType.parse_ok_iff.mp ⟨_, hp⟩, by simp,
        by simp⟩
    | buildWorkdir v hk hb => simp [ComponentSettings.Accepts, hk, mem_parameterNames, hb]
    | ports v hk hp =>
      simp only [ComponentSettings.Accepts, hk]
      exact ⟨by simp [mem_parameterNames], by simp, fun _ => (mapM_ok_iff _).mp ⟨_, hp⟩, by simp⟩
    | _ => simp [ComponentSettings.Accepts, mem_parameterNames, *]
  · rintro ⟨hmem, hsource, hports, hworkdir⟩
    rcases mem_parameterNames.mp hmem with
      hk | hk | hk | hk | hk | hk | hk | hk | hk | hk | hk | hk | hk | hk | hk
    · exact ⟨_, .name _ hk⟩
    · exact ⟨_, .application _ hk⟩
    · exact ⟨_, .project _ hk⟩
    · obtain ⟨t, ht⟩ := SourceType.parse_ok_iff.mpr (hsource hk)
      exact ⟨_, .sourceType hk ht⟩
    · exact ⟨_, .sourcePath _ hk⟩
    · exact ⟨_, .image _ hk⟩
    · exact ⟨_, .destination _ hk⟩
    · exact ⟨_, .mirrorRoots _ hk⟩
    · exact ⟨_, .buildCommand _ hk⟩
    · obtain ⟨b, hb⟩ := Option.isSome_iff_exists.mp (hworkdir hk)
      exact ⟨_, .buildWorkdir _ hk hb⟩
    · exact ⟨_, .runCommand _ hk⟩
    · exact ⟨_, .reloadCommand _ hk⟩
    · obtain ⟨ports, hp⟩ := (mapM_ok_iff _).mpr (hports hk)
      exact ⟨_, .ports _ hk hp⟩
    · exact ⟨_, .ignore _ hk⟩
    · exact ⟨_, .storageSize _ hk⟩

theorem ComponentSettings.apply_none_ok_iff :
    (∃ s', s.apply key none = .ok s') ↔ asciiLower key ∈ parameterNames := by
  simp only [ComponentSettings.apply_eq_ok_iff]
  constructor
  · rintro ⟨s', h⟩
    cases h <;> simp [mem_parameterNames, *]
  · intro hmem
    rcases mem_parameterNames.mp hmem with
      hk | hk | hk | hk | hk | hk | hk | hk | hk | hk | hk | hk | hk | hk | hk
    · exact ⟨_, .name _ hk⟩
    · exact ⟨_, .application _ hk⟩
    · exact ⟨_, .project _ hk⟩
    · exact ⟨_, .sourceTypeCleared hk⟩
    · exact ⟨_, .sourcePath _ hk⟩
    · exact ⟨_, .image _ hk⟩
    · exact ⟨_, .destination _ hk⟩
    · exact ⟨_, .mirrorRoots _ hk⟩
    · exact ⟨_, .buildCommand _ hk⟩
    · cases hb : s.build with
      | none => exact ⟨_, .buildWorkdirUnbuilt hk hb⟩
      | some b => exact ⟨_, .buildWorkdir _ hk hb⟩
    · exact ⟨_, .runCommand _ hk⟩
    · exact ⟨_, .reloadCommand _ hk⟩
    · exact ⟨_, .ports _ hk (show (splitList none).mapM (readUnsigned maxPort) = .ok [] from rfl)⟩
    · exact ⟨_, .ignore _ hk⟩
    · exact ⟨_, .storageSize _ hk⟩

end Accepts

/-! ### What the parameters show -/

/-- What the parameter `key` shows once set to `value`: the items of a list joined by commas,
or nothing for no items; ports as the numbers read from them, in decimal; a source type by its
lower-case name; anything else as given. -/
def shownValue (key value : String) : Option String :=
  match asciiLower key with
  | "mirrorroots" | "ignore" => joinList (splitList (some value))
  | "ports" =>
    match (splitList (some value)).mapM (readUnsigned maxPort) with
    | .ok ports => joinList (ports.map toString)
    | .error _ => none
  | "sourcetype" => some (asciiLower value)
  | _ => some value

/-- The parameters other than `key` show in `s'` what they show in `s`, but that the destination
follows a new name while none is set, and that the build's working directory goes when the build
command is cleared. -/
def ComponentSettings.OthersKept (s s' : ComponentSettings) (key : String) (v : Option String) :
    Prop :=
  ∀ k, asciiLower k ≠ asciiLower key →
    s'.get k =
      if asciiLower key = "name" ∧ asciiLower k = "destination" ∧ s.destination = none then
        .ok (some (v.elim projectsRoot (fun n => projectsRoot ++ "/" ++ n)))
      else if asciiLower key = "buildcommand" ∧ asciiLower k = "buildworkdir" ∧ v = none then
        .ok none
      else s.get k

section Get

variable {s s' : ComponentSettings} {key value : String} {v : Option String}

theorem ComponentSettings.get_apply_some (h : s.apply key (some value) = .ok s') :
    s'.get key = .ok (shownValue key value) := by
  cases sets_of_apply h with
  | sourceType hk hp =>
    simp [ComponentSettings.get, shownValue, hk, SourceType.parse_eq_ok_iff.mp hp]
  | ports v hk hp => simp [ComponentSettings.get, shownValue, hk, hp]
  | _ => simp [ComponentSettings.get, shownValue, ComponentSettings.destinationDir, *]

/-- A cleared parameter shows what it shows in the default settings; the destination shows the
directory that follows the name. -/
theorem ComponentSettings.get_apply_none (h : s.apply key none = .ok s') :
    s'.get key =
      if asciiLower key = "destination" then
        .ok (some (s.name.elim projectsRoot (fun n => projectsRoot ++ "/" ++ n)))
      else ComponentSettings.default.get key := by
  cases sets_of_apply h with
  | destination v hk =>
    cases s.name <;> simp [ComponentSettings.get, ComponentSettings.destinationDir, hk]
  | ports v hk hp =>
    have hnil : [] = _ := Except.ok.inj hp
    subst hnil
    simp [ComponentSettings.get, ComponentSettings.default, hk]
  | _ => simp [ComponentSettings.get, ComponentSettings.default, splitList, *]

theorem ComponentSettings.get_apply_other (h : s.apply key v = .ok s') : s.OthersKept s' key v := by
  intro k hk
  generalize hn : asciiLower k = n at hk ⊢
  cases sets_of_apply h with
  | name v hkey =>
    unfold ComponentSettings.get
    rw [hn]
    split <;> simp_all [ComponentSettings.destinationDir]
    cases s.destination <;> cases v <;> rfl
  | buildCommand v hkey =>
    unfold ComponentSettings.get
    rw [hn]
    split <;> simp_all [ComponentSettings.destinationDir]
    cases v <;> rfl
  | _ =>
    unfold ComponentSettings.get
    rw [hn]
    split <;> simp_all [ComponentSettings.destinationDir]

end Get

end ComponentSync
