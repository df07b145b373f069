import ComponentSync.Cluster.Ensure
import ComponentSync.Cluster.Scripted
import ComponentSync.Proofs.ComponentObjects
import Mathlib.Data.List.TakeWhile
/-! Preparing a component's resources against an API server that keeps its objects by the path
that names them: a read answers the object or `NotFound`, a create answers `AlreadyExists` when
the object is there and stores it otherwise, and a server-side apply stores what a fixed merge
makes of the object there and the one applied. The server reads each path as the HTTP layer
delivers it, which is a parameter: a `?` starts the query, a `#` the fragment, and a `%` an escape,
so only a path of other characters is sure to arrive as it was sent. When the merge is idempotent
and the namespace and the name are made of such characters, preparing reports exactly which of
the claim and the deployment were missing, leaves every object in place, never touches an
existing claim, and a second run reports nothing new and changes nothing. Main statement:
`ensure_component_settles`. -/
namespace ComponentSync

/-- The objects an API server holds, by the path that names them. -/
@[ext] structure ObjectStore where
  objects : String → Option Value

namespace ObjectStore

def put (st : ObjectStore) (p : String) (v : Value) : ObjectStore :=
  ⟨fun q => if q = p then some v else st.objects q⟩

/-- Stores an object at a path unless one is there already. -/
def addMissing (st : ObjectStore) (p : String) (v : Value) : ObjectStore :=
  match st.objects p with
  | some _ => st
  | none => st.put p v

/-- Stores at a path what `merge` makes of the object there, if any, and another. -/
def apply (merge : Option Value → Value → Value) (st : ObjectStore) (p : String) (v : Value) :
    ObjectStore :=
  st.put p (merge (st.objects p) v)

/-- How the server answers a plain request, at the path it reads. A read answers the object or `NotFound`; a create in
a collection answers `AlreadyExists` when the object its body names is there and otherwise
stores the body; an apply stores what `merge` makes of the object there, if any, and the body. -/
def answer (merge : Option Value → Value → Value) (st : ObjectStore) (r : ApiRequest) :
    ApiAnswer × ObjectStore :=
  let body := r.body.getD (.map [])
  match r.method with
  | "GET" =>
    match st.objects r.path with
    | some v => (.ok v, st)
    | none => (.failed (statusFailure 404 "NotFound" (r.path ++ " not found")), st)
  | "POST" =>
    let p := r.path ++ "/" ++ body.objectName
    match st.objects p with
    | some _ => (.failed (statusFailure 409 "AlreadyExists" (p ++ " already exists")), st)
    | none => (.ok body, st.put p body)
  | "PATCH" => (.ok (merge (st.objects r.path) body), st.apply merge r.path body)
  | m => (.failed (statusFailure 405 "MethodNotAllowed" m), st)

/-- The server over a store, reading each request at the path `receive` delivers for the one
sent. It runs no commands. -/
def server (merge : Option Value → Value → Value) (receive : String → String) :
    ApiServer ObjectStore where
  send r := modifyGet fun st => st.answer merge { r with path := receive r.path }
  exec _ _ := pure (.refused 405)

@[simp] theorem put_objects (st : ObjectStore) (p q : String) (v : Value) :
    (st.put p v).objects q = if q = p then some v else st.objects q := rfl

@[simp] theorem addMissing_objects (st : ObjectStore) (p q : String) (v : Value) :
    (st.addMissing p v).objects q = if q = p then some ((st.objects p).getD v) else st.objects q := by
  unfold addMissing
  by_cases hq : q = p
  · subst hq
    cases h : st.objects q <;> simp [h]
  · cases st.objects p <;> simp [hq]

@[simp] theorem apply_objects (merge : Option Value → Value → Value) (st : ObjectStore)
    (p q : String) (v : Value) :
    (st.apply merge p v).objects q = if q = p then some (merge (st.objects p) v) else st.objects q :=
  rfl

theorem put_self {st : ObjectStore} {p : String} {v : Value} (h : st.objects p = some v) :
    st.put p v = st := by
  cases st with
  | mk objects =>
    simp only [put, ObjectStore.mk.injEq]
    funext q
    by_cases hq : q = p
    · rw [if_pos hq, hq, ← h]
    · rw [if_neg hq]

end ObjectStore

/-! ### How a path reaches the server -/

/-- A character that stands for itself in a request path: one a URI path may hold unescaped,
other than `?`, which starts the query, `#`, which starts the fragment, and `%`, which starts an
escape. -/
def plainPathChar (c : Char) : Bool :=
  uriPathChar c && c != '?' && c != '#' && c != '%'

theorem uriPathChar_of_plain {p : String} (h : p.all plainPathChar = true) :
    p.all uriPathChar = true := by
  simp only [String.all_bool_eq, List.all_eq_true, plainPathChar, Bool.and_eq_true] at h ⊢
  exact fun c hc => (h c hc).1.1.1

/-- An HTTP layer that delivers a path of plain characters as it was sent, whatever it does to
other paths. -/
def KeepsPlainPaths (receive : String → String) : Prop :=
  ∀ p, p.all plainPathChar = true → receive p = p

/-- The path a server reads for a request URI's path text: what comes before the first `?`,
which starts the query, or `#`, which starts the fragment and is not sent. -/
def receivedPath (p : String) : String :=
  String.ofList (p.toList.takeWhile fun c => c != '?' && c != '#')

theorem keepsPlainPaths_receivedPath : KeepsPlainPaths receivedPath := by
  intro p hp
  simp only [String.all_bool_eq, List.all_eq_true, plainPathChar, Bool.and_eq_true] at hp
  have hkeep : p.toList.takeWhile (fun c => c != '?' && c != '#') = p.toList :=
    List.takeWhile_eq_self_iff.mpr fun c hc => by
      obtain ⟨⟨⟨-, hq⟩, hh⟩, -⟩ := hp c hc
      simp only [bne_iff_ne, ne_eq] at hq hh
      simp [hq, hh]
  simp [receivedPath, hkeep]

/-! ### Where the objects live -/

def namespacePath (ns : String) : String := "/api/v1/namespaces/" ++ ns

/-- Where the API keeps the claim of a component named `n`. -/
def claimPath (ns n : String) : String :=
  collectionPath "/api/v1" ns "persistentvolumeclaims" ++ "/" ++ claimName n

/-- Where the API keeps the deployment of a component named `n`. -/
def deploymentPath (ns n : String) : String :=
  collectionPath "/apis/apps/v1" ns "deployments" ++ "/" ++ n

/-- Where the API keeps the service of a component named `n`. -/
def servicePath (ns n : String) : String :=
  collectionPath "/api/v1" ns "services" ++ "/" ++ n

theorem paths_distinct (ns n : String) :
    namespacePath ns ≠ claimPath ns n ∧ namespacePath ns ≠ deploymentPath ns n ∧
      namespacePath ns ≠ servicePath ns n ∧ claimPath ns n ≠ deploymentPath ns n ∧
      claimPath ns n ≠ servicePath ns n ∧ deploymentPath ns n ≠ servicePath ns n := by
  unfold namespacePath claimPath deploymentPath servicePath collectionPath claimName
  refine ⟨?_, ?_, ?_, ?_, ?_, ?_⟩ <;>
    simp only [ne_eq, ← String.toList_inj, String.toList_append] <;> simp

/-- Every path the preparation requests is made of plain characters when the namespace and the
name are. -/
theorem paths_plain {ns n : String} (hns : ns.all plainPathChar = true)
    (hn : n.all plainPathChar = true) :
    (namespacePath ns).all plainPathChar = true ∧ (claimPath ns n).all plainPathChar = true ∧
      (deploymentPath ns n).all plainPathChar = true ∧
      (servicePath ns n).all plainPathChar = true := by
  unfold namespacePath claimPath deploymentPath servicePath collectionPath claimName
  simp only [String.all_bool_eq, String.toList_append, List.all_append] at hns hn ⊢
  simp [hns, hn, plainPathChar, uriPathChar]

/-- What preparing a component named `n` leaves in a store: its namespace and its claim `c`
added where missing, its deployment `d` and its service `o`, when it has one, applied. -/
def ObjectStore.prepare (merge : Option Value → Value → Value) (st : ObjectStore) (ns n : String)
    (c d : Value) (o : Option Value) : ObjectStore :=
  let st := (st.addMissing (namespacePath ns) (namespaceObject ns)).addMissing (claimPath ns n) c
  let st := st.apply merge (deploymentPath ns n) d
  match o with
  | none => st
  | some v => st.apply merge (servicePath ns n) v

section Prepare

variable {merge : Option Value → Value → Value} {st : ObjectStore} {ns n : String} {c d : Value}
  {o : Option Value}

theorem prepare_objects (q : String) :
    (st.prepare merge ns n c d o).objects q =
      if q = namespacePath ns then some ((st.objects q).getD (namespaceObject ns))
      else if q = claimPath ns n then some ((st.objects q).getD c)
      else if q = deploymentPath ns n then some (merge (st.objects q) d)
      else if q = servicePath ns n then (o.map (merge (st.objects q))).or (st.objects q)
      else st.objects q := by
  obtain ⟨dnc, dnd, dns, dcd, dcs, dds⟩ := paths_distinct ns n
  unfold ObjectStore.prepare
  by_cases h1 : q = namespacePath ns
  · subst h1
    cases o <;> simp [dnc, dnd, dns]
  by_cases h2 : q = claimPath ns n
  · subst h2
    cases o <;> simp [dcd, dcs, Ne.symm dnc]
  by_cases h3 : q = deploymentPath ns n
  · subst h3
    cases o <;> simp [dds, Ne.symm dnd, Ne.symm dcd]
  by_cases h4 : q = servicePath ns n
  · subst h4
    cases o <;> simp [Ne.symm dns, Ne.symm dcs, Ne.symm dds]
  · cases o <;> simp [h1, h2, h3, h4]

/-- Preparing a prepared store again changes nothing, when applying an object twice is applying
it once. -/
theorem prepare_prepare (hmerge : ∀ old v, merge (some (merge old v)) v = merge old v) :
    (st.prepare merge ns n c d o).prepare merge ns n c d o = st.prepare merge ns n c d o := by
  ext1
  funext q
  simp only [prepare_objects]
  split_ifs <;> cases o <;> simp [hmerge]

end Prepare

/-! ### One request at a time -/

theorem StateM.run_bind_eq {σ α β : Type} (x : StateM σ α) (f : α → StateM σ β) (s : σ) :
    (x >>= f).run s = (f (x.run s).1).run (x.run s).2 := rfl

theorem StateM.run_pure_eq {σ α : Type} (a : α) (s : σ) : (pure a : StateM σ α).run s = (a, s) :=
  rfl

section Steps

variable {merge : Option Value → Value → Value} {receive : String → String} {st : ObjectStore}

theorem server_get (hrec : KeepsPlainPaths receive) {path : String}
    (hwf : path.all plainPathChar = true) :
    ((ObjectStore.server merge receive).call (ApiRequest.get path [])).run st =
      (match st.objects path with
        | some v => .ok v
        | none => .error (.api (statusFailure 404 "NotFound" (path ++ " not found"))), st) := by
  unfold ApiServer.call
  simp only [ApiRequest.get, ApiRequest.wellFormed, uriPathChar_of_plain hwf, Bool.not_true]
  cases h : st.objects path <;>
    simp [ObjectStore.server, ObjectStore.answer, hrec path hwf, h] <;> rfl

theorem server_post (hrec : KeepsPlainPaths receive) {coll ct : String} {obj : Value}
    (hwf : coll.all plainPathChar = true) :
    ((ObjectStore.server merge receive).call ⟨"POST", coll, [], some obj, some ct⟩).run st =
      match st.objects (coll ++ "/" ++ obj.objectName) with
      | some _ => (.error (.api (statusFailure 409 "AlreadyExists"
          (coll ++ "/" ++ obj.objectName ++ " already exists"))), st)
      | none => (.ok obj, st.put (coll ++ "/" ++ obj.objectName) obj) := by
  unfold ApiServer.call
  simp only [ApiRequest.wellFormed, uriPathChar_of_plain hwf, Bool.not_true]
  cases h : st.objects (coll ++ "/" ++ obj.objectName) <;>
    simp [ObjectStore.server, ObjectStore.answer, hrec coll hwf, h] <;> rfl

theorem server_patch (hrec : KeepsPlainPaths receive) {path : String}
    {query : List (String × String)} {ct : String} {obj : Value}
    (hwf : path.all plainPathChar = true) :
    ((ObjectStore.server merge receive).call ⟨"PATCH", path, query, some obj, some ct⟩).run st =
      (.ok (merge (st.objects path) obj), st.apply merge path obj) := by
  unfold ApiServer.call
  simp only [ApiRequest.wellFormed, uriPathChar_of_plain hwf, Bool.not_true]
  simp [ObjectStore.server, ObjectStore.answer, hrec path hwf]
  rfl

theorem readOptional_run (hrec : KeepsPlainPaths receive) {path context : String}
    (hwf : path.all plainPathChar = true) :
    (readOptional (ObjectStore.server merge receive) path context).run st =
      (.ok (st.objects path), st) := by
  unfold readOptional
  rw [StateM.run_bind_eq, server_get hrec hwf]
  cases st.objects path <;> rfl

theorem readOptional_malformed {σ : Type} {srv : ApiServer σ} {t : σ} {path context : String}
    (hbad : path.all uriPathChar = false) :
    (readOptional srv path context).run t = (.error (.kube context .invalidUri), t) := by
  unfold readOptional ApiServer.call
  simp only [ApiRequest.get, ApiRequest.wellFormed, hbad, Bool.not_false, ↓reduceIte]
  rfl

theorem ensureNamespace_run (hrec : KeepsPlainPaths receive) {ns : String}
    (hwf : (namespacePath ns).all plainPathChar = true) :
    (ensureNamespace (ObjectStore.server merge receive) ns).run st =
      (.ok (), st.addMissing (namespacePath ns) (namespaceObject ns)) := by
  have hpost : "/api/v1/namespaces".all plainPathChar = true := by
    simp [String.all_bool_eq, plainPathChar, uriPathChar]
  have hname : "/api/v1/namespaces" ++ "/" ++ (namespaceObject ns).objectName = namespacePath ns := by
    unfold namespacePath
    simp [namespaceObject, Value.objectName]
  unfold ensureNamespace ObjectStore.addMissing
  rw [StateM.run_bind_eq]
  erw [server_get hrec hwf]
  cases h : st.objects (namespacePath ns) with
  | some v => rfl
  | none =>
    simp only [statusFailure, beq_self_eq_true, if_true, StateM.run_bind_eq, StateM.run_pure_eq]
    erw [server_post hrec hpost]
    simp only [hname, h]
    rfl

theorem createIfAbsent_run (hrec : KeepsPlainPaths receive) {coll kind p : String} {obj : Value}
    (hp : coll ++ "/" ++ obj.objectName = p) (hwf : p.all plainPathChar = true) :
    (createIfAbsent (ObjectStore.server merge receive) coll kind obj).run st =
      (.ok (st.objects p).isNone, st.addMissing p obj) := by
  subst hp
  have hcoll : coll.all plainPathChar = true := by
    simp only [String.all_bool_eq, String.toList_append, List.all_append, Bool.and_eq_true] at hwf ⊢
    exact hwf.1.1
  unfold createIfAbsent ObjectStore.addMissing
  rw [StateM.run_bind_eq]
  erw [readOptional_run hrec hwf]
  cases h : st.objects (coll ++ "/" ++ obj.objectName) with
  | some v => rfl
  | none =>
    simp only [StateM.run_bind_eq]
    erw [server_post hrec hcoll]
    simp only [h]
    rfl

theorem applyObject_run (hrec : KeepsPlainPaths receive) {coll kind p : String} {obj : Value}
    (hp : coll ++ "/" ++ obj.objectName = p) (hwf : p.all plainPathChar = true) :
    (applyObject (ObjectStore.server merge receive) coll kind obj).run st =
      (.ok (st.objects p).isNone, st.apply merge p obj) := by
  subst hp
  unfold applyObject
  rw [StateM.run_bind_eq]
  erw [readOptional_run hrec hwf]
  simp only [StateM.run_bind_eq]
  erw [server_patch hrec hwf]
  rfl

/-- Preparing a named component with an image against the store adds its namespace and claim
where missing and applies its deployment and service, reporting which of the deployment and the
claim were missing before. -/
theorem ensureComponent_run (hrec : KeepsPlainPaths receive) {s : ComponentSettings}
    {ns n i : String} (hn : s.name = some n) (hi : s.image = some i)
    (hns : ns.all plainPathChar = true) (hname : n.all plainPathChar = true) :
    ∃ c d o, projectFilesClaim s ns = .ok c ∧ deploymentObject s ns = .ok d ∧
      serviceObject s ns = .ok o ∧ (o.isSome ↔ s.ports ≠ []) ∧
      (ensureComponent (ObjectStore.server merge receive) ns s).run st =
        (.ok ⟨(st.objects (deploymentPath ns n)).isNone, (st.objects (claimPath ns n)).isNone⟩,
          st.prepare merge ns n c d o) := by
  obtain ⟨c, d, o, hc, hd, ho, agree⟩ := @objects_agree _ ns _ _ hn hi
  obtain ⟨wns, wc, wd, wsv⟩ := paths_plain hns hname
  obtain ⟨dnc, dnd, dns, dcd, dcs, dds⟩ := paths_distinct ns n
  refine ⟨c, d, o, hc, hd, ho, agree.service_iff_ports, ?_⟩
  have hcn : c.objectName = claimName n := by simp [Value.objectName_eq, agree.mounts_claim.1]
  have hdn : d.objectName = n := by simp [Value.objectName_eq, agree.named.1]
  unfold ensureComponent
  rw [StateM.run_bind_eq]
  erw [ensureNamespace_run hrec wns]
  simp only [hc, hd, ho]
  rw [StateM.run_bind_eq]
  erw [createIfAbsent_run hrec (p := claimPath ns n) (by rw [hcn]; rfl) wc]
  simp only
  rw [StateM.run_bind_eq]
  erw [applyObject_run hrec (p := deploymentPath ns n) (by rw [hdn]; rfl) wd]
  -- the report reads the deployment and the claim where the earlier steps did not write
  have hdep : (((st.addMissing (namespacePath ns) (namespaceObject ns)).addMissing (claimPath ns n)
      c).objects (deploymentPath ns n)).isNone = (st.objects (deploymentPath ns n)).isNone := by
    simp [Ne.symm dnd, Ne.symm dcd]
  have hclaim : ((st.addMissing (namespacePath ns) (namespaceObject ns)).objects
      (claimPath ns n)).isNone = (st.objects (claimPath ns n)).isNone := by
    simp [Ne.symm dnc]
  cases o with
  | none =>
    simp only [hdep, hclaim]
    rfl
  | some v =>
    have hvn : v.objectName = n := by simp [Value.objectName_eq, agree.named.2 v rfl]
    simp only [StateM.run_bind_eq]
    erw [applyObject_run hrec (p := servicePath ns n) (by rw [hvn]; rfl) wsv]
    simp only [hdep, hclaim]
    rfl

end Steps

/-! ### A namespace that may not be read, or that appears meanwhile -/

def namespaceCreate (ns : String) : ApiRequest :=
  ⟨"POST", "/api/v1/namespaces", [], some (namespaceObject ns), some "application/json"⟩

/-- Reading the namespace may be refused with status 403, and creating it may find it there
already, with status 409: either way, against any server, the namespace step succeeds. -/
def NamespaceStepTolerant (ns : String) : Prop :=
  ∀ (σ : Type) (srv : ApiServer σ) (t t' t'' : σ) (f g : ApiFailure),
    (srv.send (ApiRequest.get (namespacePath ns) [])).run t = (.failed f, t') →
    (f.reason ≠ "NotFound" → f.code = 403 → (ensureNamespace srv ns).run t = (.ok (), t')) ∧
    (f.reason = "NotFound" → (srv.send (namespaceCreate ns)).run t' = (.failed g, t'') →
      g.code = 409 → (ensureNamespace srv ns).run t = (.ok (), t''))

theorem namespaceStepTolerant {ns : String} (hwf : (namespacePath ns).all uriPathChar = true) :
    NamespaceStepTolerant ns := by
  intro σ srv t t' t'' f g hget
  have hpost : (namespaceCreate ns).wellFormed = true := by
    simp [namespaceCreate, ApiRequest.wellFormed, String.all_bool_eq, uriPathChar]
  have hread : (srv.call (ApiRequest.get (namespacePath ns) [])).run t = (.error (.api f), t') := by
    unfold ApiServer.call
    simp only [ApiRequest.get, ApiRequest.wellFormed, hwf, Bool.not_true, Bool.false_eq_true,
      ↓reduceIte]
    rw [StateM.run_bind_eq]
    erw [hget]
    rfl
  refine ⟨fun hreason hcode => ?_, fun hreason hcreate hcode => ?_⟩
  · unfold ensureNamespace
    rw [StateM.run_bind_eq]
    erw [hread]
    simp [hreason, hcode]
    rfl
  · have hmade : (srv.call (namespaceCreate ns)).run t' = (.error (.api g), t'') := by
      unfold ApiServer.call
      simp only [hpost, Bool.not_true, Bool.false_eq_true, ↓reduceIte]
      rw [StateM.run_bind_eq, hcreate]
      rfl
    unfold ensureNamespace
    rw [StateM.run_bind_eq]
    erw [hread]
    simp only [hreason, beq_self_eq_true, if_true, StateM.run_bind_eq, StateM.run_pure_eq]
    erw [hmade]
    simp [hcode]
    rfl

/-! ### Preparing a component, and preparing it again -/

/-- What preparing a component named `n` in namespace `ns` did to the store `st`, leaving `st'`
and reporting `r`. -/
structure Prepared (s : ComponentSettings) (ns n : String) (st st' : ObjectStore)
    (r : EnsureReport) : Prop where
  /-- The report says which of the deployment and the claim were missing before. -/
  report : r = ⟨(st.objects (deploymentPath ns n)).isNone, (st.objects (claimPath ns n)).isNone⟩
  /-- The namespace, the claim and the deployment exist. -/
  present : (st'.objects (namespacePath ns)).isSome ∧ (st'.objects (claimPath ns n)).isSome ∧
    (st'.objects (deploymentPath ns n)).isSome
  /-- The service exists when there are ports; without ports it is left as it was. -/
  service : (s.ports ≠ [] → (st'.objects (servicePath ns n)).isSome) ∧
    (s.ports = [] → st'.objects (servicePath ns n) = st.objects (servicePath ns n))
  /-- A claim that existed is left as it was. -/
  claim_kept : ∀ v, st.objects (claimPath ns n) = some v → st'.objects (claimPath ns n) = some v
  /-- Nothing else changes. -/
  others_kept : ∀ q, q ∉ [namespacePath ns, claimPath ns n, deploymentPath ns n, servicePath ns n] →
    st'.objects q = st.objects q

theorem prepared_of_prepare {merge : Option Value → Value → Value} {st : ObjectStore}
    {s : ComponentSettings} {ns n : String} {c d : Value} {o : Option Value}
    (ho : o.isSome ↔ s.ports ≠ []) :
    Prepared s ns n st (st.prepare merge ns n c d o)
      ⟨(st.objects (deploymentPath ns n)).isNone, (st.objects (claimPath ns n)).isNone⟩ := by
  obtain ⟨dnc, dnd, dns, dcd, dcs, dds⟩ := paths_distinct ns n
  refine ⟨rfl, ?_, ⟨fun hp => ?_, fun hp => ?_⟩, fun v hv => ?_, fun q hq => ?_⟩
  · simp [prepare_objects, Ne.symm dnc, Ne.symm dnd, Ne.symm dcd]
  · obtain ⟨v, rfl⟩ := Option.isSome_iff_exists.mp (ho.mpr hp)
    simp [prepare_objects, Ne.symm dns, Ne.symm dcs, Ne.symm dds]
  · have : o = none := Option.not_isSome_iff_eq_none.mp fun h => ho.mp h hp
    simp [prepare_objects, this, Ne.symm dns, Ne.symm dcs, Ne.symm dds]
  · simp [prepare_objects, Ne.symm dnc, hv]
  · simp only [List.mem_cons, List.not_mem_nil, or_false, not_or] at hq
    simp [prepare_objects, hq.1, hq.2.1, hq.2.2.1, hq.2.2.2]

/-- Preparing a named component with an image against a store whose apply is idempotent, behind
an HTTP layer that delivers a path of plain characters as it was sent, in a namespace and under a
name made of such characters: the preparation succeeds, reports which of the deployment and the
claim were missing, leaves the namespace, the claim, the deployment and (with ports) the service
in place, never changes an existing claim or anything else, and a second preparation reports
nothing new and changes nothing. Against any server, a refused read of the namespace or a create
that finds it there does not fail the namespace step. -/
theorem ensure_component_settles (merge : Option Value → Value → Value)
    (hmerge : ∀ old v, merge (some (merge old v)) v = merge old v) (receive : String → String)
    (hreceive : KeepsPlainPaths receive) (st : ObjectStore) (s : ComponentSettings)
    (ns n i : String) (hn : s.name = some n) (hi : s.image = some i)
    (hns : ns.all plainPathChar = true) (hname : n.all plainPathChar = true) :
    (∃ r st', (ensureComponent (ObjectStore.server merge receive) ns s).run st = (.ok r, st') ∧
      Prepared s ns n st st' r ∧
      (ensureComponent (ObjectStore.server merge receive) ns s).run st' =
        (.ok ⟨false, false⟩, st')) ∧
    NamespaceStepTolerant ns := by
  obtain ⟨c, d, o, hc, hd, ho, hports, hrun⟩ :=
    @ensureComponent_run merge receive st hreceive _ _ _ _ hn hi hns hname
  obtain ⟨c', d', o', hc', hd', ho', -, hrun'⟩ :=
    @ensureComponent_run merge receive (st.prepare merge ns n c d o) hreceive _ _ _ _ hn hi hns
      hname
  obtain ⟨rfl, rfl, rfl⟩ : c = c' ∧ d = d' ∧ o = o' := by
    rw [hc] at hc'
    rw [hd] at hd'
    rw [ho] at ho'
    exact ⟨Except.ok.inj hc', Except.ok.inj hd', Except.ok.inj ho'⟩
  have hprep : Prepared s ns n st (st.prepare merge ns n c d o) _ := prepared_of_prepare hports
  refine ⟨⟨_, _, hrun, hprep, ?_⟩,
    namespaceStepTolerant (uriPathChar_of_plain (paths_plain hns hname).1)⟩
  rw [hrun', prepare_prepare hmerge]
  obtain ⟨-, hclaim, hdep⟩ := hprep.present
  simp [← Option.not_isSome, hdep, hclaim]

/-- Preparing `api`, with port 8080, in `team-a` against an empty store whose apply keeps the
object it is given, behind a layer that cuts each path at its query or fragment. -/
theorem ensure_component_settles_api :
    let s : ComponentSettings :=
      { ComponentSettings.default with name := some "api", image := some "img", ports := [8080] }
    let st : ObjectStore := ⟨fun _ => none⟩
    let srv := ObjectStore.server (fun _ v => v) receivedPath
    ("team-a".all plainPathChar = true ∧ "api".all plainPathChar = true) ∧
      (∃ r st', (ensureComponent srv "team-a" s).run st = (.ok r, st') ∧
        Prepared s "team-a" "api" st st' r ∧
        (ensureComponent srv "team-a" s).run st' = (.ok ⟨false, false⟩, st')) ∧
      NamespaceStepTolerant "team-a" := by
  intro s st srv
  have hns : "team-a".all plainPathChar = true := by
    simp [String.all_bool_eq, plainPathChar, uriPathChar]
  have hname : "api".all plainPathChar = true := by
    simp [String.all_bool_eq, plainPathChar, uriPathChar]
  exact ⟨⟨hns, hname⟩,
    ensure_component_settles (fun _ v => v) (fun _ _ => rfl) receivedPath
      keepsPlainPaths_receivedPath st s "team-a" "api" "img" rfl rfl hns hname⟩

/-- A component named `a b`: a space cannot stand in a URI path, so preparing it creates the
namespace and then fails reading its claim, before anything is sent about it. -/
theorem spaced_name_not_prepared :
    let s : ComponentSettings :=
      { ComponentSettings.default with name := some "a b", image := some "img" }
    let st : ObjectStore := ⟨fun _ => none⟩
    (ensureComponent (ObjectStore.server (fun _ v => v) receivedPath) "team-a" s).run st =
      (.error (.kube "reading PersistentVolumeClaim a b-project-files" .invalidUri),
        st.addMissing (namespacePath "team-a") (namespaceObject "team-a")) := by
  intro s st
  obtain ⟨c, _, _, hc, -, -, agree⟩ := @objects_agree s "team-a" "a b" "img" rfl rfl
  have hcn : c.objectName = claimName "a b" := by
    simp [Value.objectName_eq, agree.mounts_claim.1]
  have hns : (namespacePath "team-a").all plainPathChar = true := by
    unfold namespacePath
    simp [String.all_bool_eq, plainPathChar, uriPathChar]
  have hbad : (collectionPath "/api/v1" "team-a" "persistentvolumeclaims" ++ "/" ++
      c.objectName).all uriPathChar = false := by
    rw [hcn]
    simp [collectionPath, claimName, String.all_bool_eq, uriPathChar]
  unfold ensureComponent
  rw [StateM.run_bind_eq]
  erw [ensureNamespace_run keepsPlainPaths_receivedPath hns]
  simp only [hc]
  rw [StateM.run_bind_eq]
  unfold createIfAbsent
  rw [StateM.run_bind_eq]
  erw [readOptional_malformed hbad]
  simp only [hcn]
  rfl

end ComponentSync
