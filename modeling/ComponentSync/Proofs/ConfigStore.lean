import ComponentSync.Proofs.ConfigText
import ComponentSync.Proofs.ParameterLaws
import ComponentSync.Proofs.IndexCommit
import ComponentSync.Config.Store
/-! Setting and clearing the parameters of a component's configuration file. A file written
beside its place and moved there holds the bytes written (`readFile_moved`), so a saved
configuration within range loads back as itself (`loadConfig_saveConfig`); every configuration
that loads is within range, and so is every change of a parameter. With the laws of the
parameters this gives `parameter_store_law`. -/
namespace ComponentSync

open Workspace

/-! ### Saving and loading the configuration -/

section Save

variable {ws ws' : Workspace} {context q : Path} {c c₀ : LocalConfig} {now : Time.Instant}

theorem odoDir_eq (context : Path) : odoDir context = context ++ [toolDir] := rfl

theorem configPath_eq (context : Path) :
    configPath context = context ++ [toolDir] ++ ["config.yaml"] := rfl

theorem configDraftPath_eq (context : Path) :
    configDraftPath context = context ++ [toolDir] ++ ["config.yaml.tmp"] := rfl

theorem saveConfig_readFile (hshape : ws.TreeShaped) (hdir : ws.LeadsToDir context q)
    (hT : ∀ t m, ws.lstat (configDraftPath context) ≠ .ok (.symlink t m))
    (hC : ∀ t m, ws.lstat (configPath context) ≠ .ok (.symlink t m))
    (hs : saveConfig ws context c now = .ok ws') :
    ws'.readFile (configPath context) = .ok c.toYaml.toUTF8 := by
  unfold saveConfig at hs
  rcases hall : ws.createDirAll (odoDir context) with e | ws₁
  · simp only [hall, bind, Except.bind, Except.mapError, reduceCtorEq] at hs
  rcases hw : ws₁.writeFile (configDraftPath context) c.toYaml.toUTF8 now with e | ws₂
  · simp only [hall, hw, bind, Except.bind, Except.mapError, reduceCtorEq] at hs
  simp only [hall, hw, bind, Except.bind, Except.mapError] at hs
  rcases hr : ws₂.rename (configDraftPath context) (configPath context) with e | ws₃
  · simp only [hr, reduceCtorEq] at hs
  simp only [hr, Except.ok.injEq] at hs
  subst hs
  rw [configPath_eq] at hr hC ⊢
  rw [configDraftPath_eq] at hw hr hT
  rw [odoDir_eq] at hall
  exact readFile_moved hshape hdir (by decide) (by decide) (by decide) hT hC hall hw hr

theorem loadConfig_saveConfig (hshape : ws.TreeShaped) (hdir : ws.LeadsToDir context q)
    (hT : ∀ t m, ws.lstat (configDraftPath context) ≠ .ok (.symlink t m))
    (hC : ∀ t m, ws.lstat (configPath context) ≠ .ok (.symlink t m))
    (hs : saveConfig ws context c now = .ok ws') (hc : c.InRange) :
    loadConfig ws' context = .ok c := by
  obtain ⟨hex, htext⟩ := readText_of_readFile (saveConfig_readFile hshape hdir hT hC hs)
  simp [loadConfig, hex, readConfigFile, htext, bind, Except.bind, Except.mapError,
    LocalConfig.ofYaml_toYaml c hc.version hc.ports hc.createdAt hc.updatedAt]

theorem loadConfigOrFresh_inRange (hnow : now.WellFormed)
    (h : loadConfigOrFresh ws context now = .ok c₀) : c₀.InRange := by
  unfold loadConfigOrFresh at h
  split at h
  · cases h
    exact ⟨show configVersion ≤ versionMax by decide,
      by simp [LocalConfig.fresh, ComponentSettings.default], hnow, hnow⟩
  · unfold loadConfig readConfigFile at h
    simp only at h
    split at h
    · cases h
    · rcases ht : ws.readText (configPath context) with e | t
      · simp [ht, bind, Except.bind, Except.mapError] at h
      rcases hy : LocalConfig.ofYaml t with e | c'
      · simp [ht, hy, bind, Except.bind, Except.mapError] at h
      simp only [ht, hy, bind, Except.bind, Except.mapError, Except.ok.injEq] at h
      exact h ▸ LocalConfig.ofYaml_inRange hy

theorem loadConfig_eq_of_orFresh {c₁ : LocalConfig} (hload : loadConfigOrFresh ws context now = .ok c₀)
    (h : loadConfig ws context = .ok c₁) : c₁ = c₀ := by
  simp only [loadConfigOrFresh, h] at hload
  exact Except.ok.inj hload

end Save

/-! ### Ports stay port numbers -/

theorem readUnsigned_le {bound : Nat} {s : String} {n : Nat} (h : readUnsigned bound s = .ok n) :
    n ≤ bound := by
  -- each digit read keeps the number within the bound, or stops the reading
  have hfold : ∀ {f : Nat → Char → Except NumberFault Nat},
      (∀ acc c m, f acc c = .ok m → m ≤ bound) →
      ∀ (l : List Char) acc, acc ≤ bound → l.foldlM f acc = .ok n → n ≤ bound := by
    intro f hf l
    induction l with
    | nil =>
      intro acc hacc hl
      cases hl
      exact hacc
    | cons c l ih =>
      intro acc hacc hl
      simp only [List.foldlM_cons, bind, Except.bind] at hl
      rcases hc : f acc c with e | m
      · simp [hc] at hl
      · simp only [hc] at hl
        exact ih m (hf acc c m hc) hl
  have hstep : ∀ acc (c : Char) m, (if c.isDigit = true then
      if acc * 10 + (c.toNat - '0'.toNat) > bound then (.error .tooLarge : Except NumberFault Nat)
      else .ok (acc * 10 + (c.toNat - '0'.toNat))
      else .error .invalidDigit) = .ok m → m ≤ bound := by
    intro acc c m hm
    split at hm
    · split at hm
      · cases hm
      · cases hm
        omega
    · cases hm
  unfold readUnsigned at h
  simp only at h
  split at h
  · cases h
  -- the digits, after a sign or not
  split at h <;> split at h
  all_goals first
    | cases h
    | exact hfold hstep _ 0 (Nat.zero_le _) h

theorem exists_of_forall₂ {α β : Type} {R : α → β → Prop} {l : List α} {r : List β}
    (h : List.Forall₂ R l r) : ∀ y ∈ r, ∃ x ∈ l, R x y := by
  induction h with
  | nil => intro y hy; cases hy
  | cons hxy _ ih =>
    intro y hy
    rcases List.mem_cons.mp hy with rfl | hy
    · exact ⟨_, List.mem_cons_self, hxy⟩
    · obtain ⟨x, hx, hR⟩ := ih y hy
      exact ⟨x, List.mem_cons_of_mem _ hx, hR⟩

theorem ComponentSettings.apply_ports_le {s s' : ComponentSettings} {key : String}
    {v : Option String} (h : s.apply key v = .ok s') (hp : ∀ p ∈ s.ports, p ≤ portMax) :
    ∀ p ∈ s'.ports, p ≤ portMax := by
  cases sets_of_apply h with
  | ports v hk hr =>
    intro p hmem
    obtain ⟨raw, -, hraw⟩ := exists_of_forall₂ ((mapM_eq_ok_iff _ _).mp hr) p hmem
    exact readUnsigned_le hraw
  | _ => exact hp

/-! ### Setting and clearing a parameter -/

section Parameter

variable {ws ws' : Workspace} {context : Path} {key value : String} {now : Time.Instant}
  {c c₀ : LocalConfig}

/-- Changing the settings of a configuration and saving it: what setting and clearing a
parameter do once the configuration is found. -/
theorem applySave_eq_ok {v : Option String} :
    (do
      let component ← c₀.component.apply key v
      let c := { c₀ with component, updatedAt := now }
      return (← saveConfig ws context c now, c)) = Except.ok (ws', c) ↔
      ∃ s', c₀.component.apply key v = .ok s' ∧
        c = { c₀ with component := s', updatedAt := now } ∧ saveConfig ws context c now = .ok ws' := by
  cases ha : c₀.component.apply key v with
  | error e => simp [bind, Except.bind]
  | ok s' =>
    cases hs : saveConfig ws context { c₀ with component := s', updatedAt := now } now with
    | error e =>
      simp only [hs, bind, Except.bind, reduceCtorEq, false_iff, not_exists, not_and]
      rintro _ ⟨⟩ rfl
      rw [hs]
      simp
    | ok w =>
      simp only [hs, bind, Except.bind, pure, Except.pure, Except.ok.injEq, Prod.mk.injEq,
        exists_eq_left']
      constructor
      · rintro ⟨rfl, rfl⟩
        exact ⟨rfl, hs⟩
      · rintro ⟨rfl, h⟩
        rw [hs] at h
        exact ⟨(Except.ok.inj h), rfl⟩

/-- Setting a parameter changes the settings of the configuration found, or of a fresh one, and
saves the result. -/
theorem setParameter_eq_ok (hload : loadConfigOrFresh ws context now = .ok c₀) :
    setParameter ws context key value now = .ok (ws', c) ↔
      ∃ s', c₀.component.apply key (some value) = .ok s' ∧
        c = { c₀ with component := s', updatedAt := now } ∧ saveConfig ws context c now = .ok ws' := by
  unfold setParameter
  rw [hload]
  exact applySave_eq_ok

theorem unsetParameter_loads {r : Workspace × LocalConfig}
    (h : unsetParameter ws context key now = .ok r) : ∃ c₁, loadConfig ws context = .ok c₁ := by
  unfold unsetParameter at h
  cases hl : loadConfig ws context with
  | error e => simp [hl, bind, Except.bind] at h
  | ok c₁ => exact ⟨c₁, rfl⟩

theorem unsetParameter_eq_ok (hl : loadConfig ws context = .ok c₀) :
    unsetParameter ws context key now = .ok (ws', c) ↔
      ∃ s', c₀.component.apply key none = .ok s' ∧
        c = { c₀ with component := s', updatedAt := now } ∧ saveConfig ws context c now = .ok ws' := by
  unfold unsetParameter
  rw [hl]
  exact applySave_eq_ok

end Parameter

/-- Setting a parameter succeeds exactly when the parameter accepts the value, and clearing one
exactly when a configuration loads and the parameter exists, as long as the configuration found
(if any) reads and the file system takes the writes. Either change is read back by the next load;
the parameter then shows the value in normal form, or its default once cleared, and every other
parameter shows what it showed, but that the destination follows the name while none is set and
the build's working directory goes with a cleared build command. -/
theorem parameter_store_law {ws : Workspace} {context q : Path} {now : Time.Instant}
    {c₀ : LocalConfig} (hshape : ws.TreeShaped) (hdir : ws.LeadsToDir context q)
    (hT : ∀ t m, ws.lstat (configDraftPath context) ≠ .ok (.symlink t m))
    (hC : ∀ t m, ws.lstat (configPath context) ≠ .ok (.symlink t m))
    (hnow : now.WellFormed) (hload : loadConfigOrFresh ws context now = .ok c₀)
    (hwrite : ∀ c, ∃ ws', saveConfig ws context c now = .ok ws') (key value : String) :
    ((∃ r, setParameter ws context key value now = .ok r) ↔ c₀.component.Accepts key value) ∧
    (∀ ws' c, setParameter ws context key value now = .ok (ws', c) →
      loadConfig ws' context = .ok c ∧ c.component.get key = .ok (shownValue key value) ∧
      c₀.component.OthersKept c.component key (some value)) ∧
    ((∃ r, unsetParameter ws context key now = .ok r) ↔
      loadConfig ws context = .ok c₀ ∧ asciiLower key ∈ parameterNames) ∧
    (∀ ws' c, unsetParameter ws context key now = .ok (ws', c) →
      loadConfig ws' context = .ok c ∧
      c.component.get key =
        (if asciiLower key = "destination" then
          .ok (some (c₀.component.name.elim projectsRoot (fun n => projectsRoot ++ "/" ++ n)))
        else ComponentSettings.default.get key) ∧
      c₀.component.OthersKept c.component key none) := by
  have hin := loadConfigOrFresh_inRange hnow hload
  -- what is saved after a change is within range, so the next load reads it back
  have hsaved : ∀ {v s'}, c₀.component.apply key v = .ok s' →
      ({ c₀ with component := s', updatedAt := now } : LocalConfig).InRange := fun ha =>
    ⟨hin.version, ComponentSettings.apply_ports_le ha hin.ports, hin.createdAt, hnow⟩
  refine ⟨⟨?_, ?_⟩, ?_, ⟨?_, ?_⟩, ?_⟩
  · rintro ⟨⟨ws', c⟩, h⟩
    obtain ⟨s', ha, -, -⟩ := (setParameter_eq_ok hload).mp h
    exact ComponentSettings.apply_some_ok_iff.mp ⟨s', ha⟩
  · intro hacc
    obtain ⟨s', ha⟩ := ComponentSettings.apply_some_ok_iff.mpr hacc
    obtain ⟨ws', hs⟩ := hwrite { c₀ with component := s', updatedAt := now }
    exact ⟨_, (setParameter_eq_ok hload).mpr ⟨s', ha, rfl, hs⟩⟩
  · intro ws' c h
    obtain ⟨s', ha, rfl, hs⟩ := (setParameter_eq_ok hload).mp h
    exact ⟨loadConfig_saveConfig hshape hdir hT hC hs (hsaved ha),
      ComponentSettings.get_apply_some ha, ComponentSettings.get_apply_other ha⟩
  · rintro ⟨⟨ws', c⟩, h⟩
    obtain ⟨c₁, hl⟩ := unsetParameter_loads h
    obtain rfl := loadConfig_eq_of_orFresh hload hl
    obtain ⟨s', ha, -, -⟩ := (unsetParameter_eq_ok hl).mp h
    exact ⟨hl, ComponentSettings.apply_none_ok_iff.mp ⟨s', ha⟩⟩
  · rintro ⟨hl, hmem⟩
    obtain ⟨s', ha⟩ := ComponentSettings.apply_none_ok_iff.mpr hmem
    obtain ⟨ws', hs⟩ := hwrite { c₀ with component := s', updatedAt := now }
    exact ⟨_, (unsetParameter_eq_ok hl).mpr ⟨s', ha, rfl, hs⟩⟩
  · intro ws' c h
    obtain ⟨c₁, hl⟩ := unsetParameter_loads h
    obtain rfl := loadConfig_eq_of_orFresh hload hl
    obtain ⟨s', ha, rfl, hs⟩ := (unsetParameter_eq_ok hl).mp h
    exact ⟨loadConfig_saveConfig hshape hdir hT hC hs (hsaved ha),
      ComponentSettings.get_apply_none ha, ComponentSettings.get_apply_other ha⟩

/-- The law at an empty file system, setting the ports of a fresh configuration. -/
theorem parameter_store_law_fresh_ports :
    Workspace.empty.TreeShaped ∧ Workspace.empty.LeadsToDir [] [] ∧
      (∀ t m, Workspace.empty.lstat (configDraftPath []) ≠ .ok (.symlink t m)) ∧
      (∀ t m, Workspace.empty.lstat (configPath []) ≠ .ok (.symlink t m)) ∧
      (⟨0, 0⟩ : Time.Instant).WellFormed ∧
      loadConfigOrFresh Workspace.empty [] ⟨0, 0⟩ = .ok (LocalConfig.fresh ⟨0, 0⟩) ∧
      (∀ c, ∃ ws', saveConfig Workspace.empty [] c ⟨0, 0⟩ = .ok ws') ∧
      ((∃ r, setParameter Workspace.empty [] "ports" "8080" ⟨0, 0⟩ = .ok r) ↔
        (LocalConfig.fresh ⟨0, 0⟩).component.Accepts "ports" "8080") := by
  have hshape : Workspace.empty.TreeShaped := by decide
  have hroot : Workspace.empty.LeadsToDir [] [] := ⟨rfl, rfl⟩
  have hT : ∀ t m, Workspace.empty.lstat (configDraftPath []) ≠ .ok (.symlink t m) := by
    intro t m h
    rw [(rfl : Workspace.empty.lstat (configDraftPath []) = .error .notFound)] at h
    cases h
  have hC : ∀ t m, Workspace.empty.lstat (configPath []) ≠ .ok (.symlink t m) := by
    intro t m h
    rw [(rfl : Workspace.empty.lstat (configPath []) = .error .notFound)] at h
    cases h
  have hnow : (⟨0, 0⟩ : Time.Instant).WellFormed := by decide
  have hload : loadConfigOrFresh Workspace.empty [] ⟨0, 0⟩ = .ok (LocalConfig.fresh ⟨0, 0⟩) := rfl
  have hwrite : ∀ c, ∃ ws', saveConfig Workspace.empty [] c ⟨0, 0⟩ = .ok ws' := fun c => ⟨_, rfl⟩
  exact ⟨hshape, hroot, hT, hC, hnow, hload, hwrite,
    (parameter_store_law hshape hroot hT hC hnow hload hwrite "ports" "8080").1⟩

/-- Ports show as the numbers read from them: "080, +443" shows as "80,443", not as its trimmed
items "080,+443". -/
theorem ports_show_as_numbers :
    ((ComponentSettings.default.apply "ports" (some "080, +443")).bind (·.get "ports")).toOption =
        some (some "80,443") ∧
      joinList (splitList (some "080, +443")) = some "080,+443" := by
  constructor
  · decide +kernel
  · decide +kernel

end ComponentSync
