import ComponentSync.Cluster.Resources
import ComponentSync.Cluster.Api
import ComponentSync.Sync.Plan
import ComponentSync.Proofs.ScanKeys
/-! The objects a component is made of agree with each other and with the plan that pushes to
it. The deployment selects its pods by the component label, which is also what the push's
selector names; the pod mounts the claim that is created, in both of its containers, which are
the containers the push runs in; the service selects the same pods and forwards each port to the
port the run container exposes. Main statement: `component_objects_agree`. -/
namespace ComponentSync

/-! ### Reading documents -/

/-- The part of a document reached by following record fields. -/
def Value.at (v : Value) : List String → Option Value
  | [] => some v
  | k :: ks => (v.field k).bind (·.at ks)

def Value.labels : Value → List (String × String)
  | .map entries => entries.filterMap fun (k, x) => x.text?.map (k, ·)
  | _ => []

def Value.label (v : Value) (k : String) : Option String :=
  (v.field k).bind Value.text?

/-- The items of a list in a field of a record. -/
def Value.list (v : Value) (k : String) : List Value :=
  ((v.field k).map Value.items).getD []

def Value.int? (v : Value) (k : String) : Option Int :=
  match v.field k with
  | some (.int i) => some i
  | _ => none

@[simp] theorem Except.ok_bind {ε α β : Type} (a : α) (f : α → Except ε β) :
    (Except.ok a >>= f) = f a := rfl

@[simp] theorem Except.error_bind {ε α β : Type} (e : ε) (f : α → Except ε β) :
    (Except.error e >>= f) = .error e := rfl

@[simp] theorem Value.at_nil (v : Value) : v.at [] = some v := rfl

@[simp] theorem Value.at_cons (v : Value) (k : String) (ks : List String) :
    v.at (k :: ks) = (v.field k).bind (·.at ks) := rfl

@[simp] theorem Value.field_map_nil (k : String) : (Value.map []).field k = none := rfl

-- The lookup is stated with an `if` rather than the library's `match` on `==`: reducing that
-- `match` on two string literals unfolds the string comparison, which is very slow.
@[simp] theorem Value.field_map_cons (k key : String) (x : Value)
    (entries : List (String × Value)) :
    (Value.map ((key, x) :: entries)).field k =
      if k = key then some x else (Value.map entries).field k := by
  simp only [Value.field, List.lookup_cons]
  split <;> simp_all

@[simp] theorem Value.items_seq (items : List Value) : (Value.seq items).items = items := rfl

@[simp] theorem Value.text?_str (t : String) : (Value.str t).text? = some t := rfl

@[simp] theorem Value.labels_ofPairs (pairs : List (String × String)) :
    (Value.ofPairs pairs).labels = pairs := by
  simp only [Value.ofPairs, Value.labels, List.filterMap_map]
  have hsome : ((fun (x : String × Value) => x.snd.text?.map (x.fst, ·)) ∘
      fun (x : String × String) => (x.fst, Value.str x.snd)) = some := rfl
  rw [hsome, List.filterMap_some]

/-! ### What the objects say -/

def Value.matchLabels (d : Value) : List (String × String) :=
  ((d.at ["spec", "selector", "matchLabels"]).map Value.labels).getD []

def Value.podLabels (d : Value) : List (String × String) :=
  ((d.at ["spec", "template", "metadata", "labels"]).map Value.labels).getD []

def Value.podContainers (d : Value) : List Value :=
  ((d.at ["spec", "template", "spec"]).map (·.list "containers")).getD []

def Value.podVolumes (d : Value) : List Value :=
  ((d.at ["spec", "template", "spec"]).map (·.list "volumes")).getD []

def Value.name? (o : Value) : Option String :=
  (o.field "metadata").bind (·.label "name")

theorem Value.objectName_eq (v : Value) : v.objectName = v.name?.getD "" := by
  simp [Value.objectName, Value.name?, Value.label, Option.bind_assoc]

def Value.namespace? (o : Value) : Option String :=
  (o.field "metadata").bind (·.label "namespace")

def Value.serviceSelector (o : Value) : List (String × String) :=
  ((o.at ["spec", "selector"]).map Value.labels).getD []

/-- Each port of a service with the pod port it forwards to. -/
def Value.servicePorts (o : Value) : List (Option Int × Option Int) :=
  (((o.field "spec").map (·.list "ports")).getD []).map fun p =>
    (p.int? "port", p.int? "targetPort")

def Value.containerPorts (c : Value) : List (Option Int) :=
  (c.list "ports").map (·.int? "containerPort")

/-- A container mounts a volume at the projects root. -/
def Value.MountsAtProjects (c : Value) (volume : String) : Prop :=
  ∃ m ∈ c.list "volumeMounts", m.label "name" = some volume ∧ m.label "mountPath" = some projectsRoot

/-- A volume of the pod is the project-files volume, backed by the claim named `claim`. -/
def Value.ClaimVolume (v : Value) (claim : String) : Prop :=
  v.label "name" = some projectVolume ∧
    (v.field "persistentVolumeClaim").bind (·.label "claimName") = some claim

/-- What the objects of a component named `n` say about each other: its claim `c`, its
deployment `d` and its service `o`, when it has one. -/
structure ObjectsAgree (s : ComponentSettings) (ns n : String) (c d : Value) (o : Option Value) :
    Prop where
  /-- The deployment selects its own pods, by the component label. -/
  selects_own_pods : d.matchLabels = [(componentLabel, n)] ∧ d.matchLabels ⊆ d.podLabels
  /-- The push's selector, split at its first `=`, is a label of those pods. -/
  push_selector : ∃ key value, s.selector = some (key ++ "=" ++ value) ∧ '=' ∉ key.toList ∧
    (key, value) ∈ d.podLabels
  /-- The pod's project volume is the claim that is created. -/
  mounts_claim : c.name? = some (claimName n) ∧ ∃ v ∈ d.podVolumes, v.ClaimVolume (claimName n)
  /-- The build and the run container, both mounting that volume at `/projects`; the run
  container exposes the configured ports. -/
  containers : ∃ b r, d.podContainers = [b, r] ∧
    b.label "name" = some s.buildContainer ∧ r.label "name" = some s.runContainer ∧
    b.MountsAtProjects projectVolume ∧ r.MountsAtProjects projectVolume ∧
    r.containerPorts = s.ports.map fun (p : Nat) => some (p : Int)
  /-- There is a service exactly when there are ports. -/
  service_iff_ports : o.isSome ↔ s.ports ≠ []
  /-- The service selects the same pods and forwards each port, in order, to itself. -/
  service_routes : ∀ v ∈ o, v.serviceSelector ⊆ d.podLabels ∧
    v.servicePorts = s.ports.map fun (p : Nat) => (some (p : Int), some (p : Int))
  /-- The deployment and the service are named after the component. -/
  named : d.name? = some n ∧ ∀ v ∈ o, v.name? = some n
  /-- Every object lives in the namespace it was built for. -/
  namespaced : c.namespace? = some ns ∧ d.namespace? = some ns ∧ ∀ v ∈ o, v.namespace? = some ns

/-- The containers a push plan runs in: the target's and the build command's are the build
container, the reload command's the run container; and it finds its instances by the settings'
selector. -/
def PlanContainers (s : ComponentSettings) (plan : PushPlan) : Prop :=
  s.selector = some plan.target.selector ∧ plan.target.container = s.buildContainer ∧
    (∀ b ∈ plan.build, b.container = s.buildContainer) ∧
    (∀ r ∈ plan.reload, r.container = s.runContainer)

/-! ### The builders -/

section Builders

variable {s : ComponentSettings} {ns n : String}

theorem componentLabel_no_eq : '=' ∉ componentLabel.toList := by decide

theorem fromSettings_containers {ws : Workspace} {context : Path} {extra : List String}
    {force : Bool} {plan : PushPlan}
    (h : PushPlan.fromSettings ws context s extra force = .ok plan) : PlanContainers s plan := by
  unfold PushPlan.fromSettings at h
  rcases hsel : s.selector with _ | sel <;> rw [hsel] at h <;> dsimp only at h
  · cases h
  -- every source type that can be pushed builds its plan around the same target and commands
  have hplan : plan.target = ⟨sel, s.buildContainer, s.destinationDir, s.mirrorRoots⟩ ∧
      plan.build = s.build.map (fun spec => ⟨s.buildContainer,
        { spec with workdir := some (spec.workdir.getD s.destinationDir) }.toArgv⟩) ∧
      plan.reload = s.reload.map (fun spec => ⟨s.runContainer, spec.toArgv⟩) := by
    rcases hty : s.sourceType with _ | _ | _ <;> rw [hty] at h <;> simp only [pure_bind] at h
    · obtain ⟨_, -, h⟩ := Except.bind_eq_ok h
      obtain ⟨_, -, h⟩ := Except.bind_eq_ok h
      obtain ⟨_, -, h⟩ := Except.bind_eq_ok h
      cases h
      exact ⟨rfl, rfl, rfl⟩
    · obtain ⟨_, -, h⟩ := Except.bind_eq_ok h
      cases h
      exact ⟨rfl, rfl, rfl⟩
    · cases h
  obtain ⟨ht, hb, hr⟩ := hplan
  refine ⟨by simp [ht, hsel], by simp [ht], ?_, ?_⟩
  · intro b hbm
    rw [hb] at hbm
    obtain ⟨_, _, rfl⟩ := Option.map_eq_some_iff.mp hbm
    rfl
  · intro r hrm
    rw [hr] at hrm
    obtain ⟨_, _, rfl⟩ := Option.map_eq_some_iff.mp hrm
    rfl

theorem builders_need_name (hn : s.name = none) :
    projectFilesClaim s ns = .error .missingName ∧ deploymentObject s ns = .error .missingName ∧
      serviceObject s ns = .error .missingName := by
  simp [projectFilesClaim, deploymentObject, serviceObject, componentName, hn]

theorem projectFilesClaim_spec (hn : s.name = some n) :
    ∃ c, projectFilesClaim s ns = .ok c ∧ c.name? = some (claimName n) ∧
      c.namespace? = some ns := by
  simp [projectFilesClaim, componentName, hn, Value.name?, Value.namespace?, Value.label, objectMeta]

/-- The deployment of a named component with an image selects its pods by the component label;
the pods carry the component's labels and mount its claim in a build and a run container, the
run container exposing the component's ports; it is named after the component and lives in its
namespace. -/
theorem deploymentObject_spec {i : String} (hn : s.name = some n) (hi : s.image = some i) :
    ∃ d, deploymentObject s ns = .ok d ∧ d.matchLabels = [(componentLabel, n)] ∧
      d.podLabels = componentLabels s n ∧ (∃ v ∈ d.podVolumes, v.ClaimVolume (claimName n)) ∧
      (∃ b r, d.podContainers = [b, r] ∧
        b.label "name" = some s.buildContainer ∧ r.label "name" = some s.runContainer ∧
        b.MountsAtProjects projectVolume ∧ r.MountsAtProjects projectVolume ∧
        r.containerPorts = s.ports.map fun (p : Nat) => some (p : Int)) ∧
      d.name? = some n ∧ d.namespace? = some ns := by
  rcases hp : s.ports with _ | ⟨p, ps⟩ <;>
    simp [deploymentObject, componentName, hn, hi, hp, Value.matchLabels, Value.podLabels,
      Value.podContainers, Value.podVolumes, Value.ClaimVolume, Value.MountsAtProjects,
      Value.containerPorts, Value.name?, Value.namespace?, Value.label, Value.list, Value.int?,
      objectMeta]

/-- A named component has a service exactly when it has ports; the service selects pods by the
component label, forwards each port to itself, is named after the component and lives in its
namespace. -/
theorem serviceObject_spec (hn : s.name = some n) :
    ∃ o, serviceObject s ns = .ok o ∧ (o.isSome ↔ s.ports ≠ []) ∧
      ∀ v ∈ o, v.serviceSelector = [(componentLabel, n)] ∧
        v.servicePorts = s.ports.map (fun (p : Nat) => (some (p : Int), some (p : Int))) ∧
        v.name? = some n ∧ v.namespace? = some ns := by
  rcases hp : s.ports with _ | ⟨p, ps⟩ <;>
    simp [serviceObject, componentName, hn, hp, Value.serviceSelector, Value.servicePorts,
      Value.name?, Value.namespace?, Value.label, Value.list, Value.int?, objectMeta]

theorem objects_agree {i : String} (hn : s.name = some n) (hi : s.image = some i) :
    ∃ c d o, projectFilesClaim s ns = .ok c ∧ deploymentObject s ns = .ok d ∧
      serviceObject s ns = .ok o ∧ ObjectsAgree s ns n c d o := by
  obtain ⟨c, hc, hcname, hcns⟩ := @projectFilesClaim_spec s ns n hn
  obtain ⟨d, hd, hmatch, hlabels, hvolume, hcontainers, hdname, hdns⟩ :=
    @deploymentObject_spec s ns n _ hn hi
  obtain ⟨o, ho, hports, hservice⟩ := @serviceObject_spec s ns n hn
  have hlabel : (componentLabel, n) ∈ d.podLabels := by simp [hlabels, componentLabels]
  refine ⟨c, d, o, hc, hd, ho, ⟨⟨hmatch, by simp [hmatch, hlabel]⟩, ?_, ⟨hcname, hvolume⟩,
    hcontainers, hports, fun v hv => ?_, ⟨hdname, fun v hv => (hservice v hv).2.2.1⟩,
    ⟨hcns, hdns, fun v hv => (hservice v hv).2.2.2⟩⟩⟩
  · exact ⟨componentLabel, n, by simp [ComponentSettings.selector, hn], componentLabel_no_eq,
      hlabel⟩
  · obtain ⟨hselector, hforwards, -⟩ := hservice v hv
    exact ⟨by simp [hselector, hlabel], hforwards⟩

end Builders

/-! ### The claim, the deployment, the service and the plan together -/

/-- The objects of a component agree with each other and with every plan made from its
settings: the pods the deployment runs carry the label the push selects by and the service
routes to, they mount the claim that is created in the two containers the push runs in, and
every object is in its namespace. Without a name none of the objects can be built. -/
theorem component_objects_agree (s : ComponentSettings) (ns : String) :
    (∀ n i, s.name = some n → s.image = some i →
      ∃ c d o, projectFilesClaim s ns = .ok c ∧ deploymentObject s ns = .ok d ∧
        serviceObject s ns = .ok o ∧ ObjectsAgree s ns n c d o) ∧
    (∀ ws context extra force plan,
      PushPlan.fromSettings ws context s extra force = .ok plan → PlanContainers s plan) ∧
    (s.name = none → projectFilesClaim s ns = .error .missingName ∧
      deploymentObject s ns = .error .missingName ∧ serviceObject s ns = .error .missingName) :=
  ⟨fun _ _ hn hi => objects_agree hn hi, fun _ _ _ _ _ h => fromSettings_containers h,
    builders_need_name⟩

/-- A component with a port, named and with an image. -/
theorem component_objects_agree_frontend :
    let s := { ComponentSettings.default with
      name := some "frontend", image := some "registry.access.redhat.com/ubi8/nodejs-14",
      ports := [8080] }
    s.name = some "frontend" ∧ s.image = some "registry.access.redhat.com/ubi8/nodejs-14" ∧
      ∃ c d o, projectFilesClaim s "team-a" = .ok c ∧ deploymentObject s "team-a" = .ok d ∧
        serviceObject s "team-a" = .ok o ∧ ObjectsAgree s "team-a" "frontend" c d o :=
  ⟨rfl, rfl, (component_objects_agree _ "team-a").1 _ _ rfl rfl⟩

end ComponentSync
