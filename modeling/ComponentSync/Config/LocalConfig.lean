import ComponentSync.Config.Settings
import ComponentSync.Yaml.Emit
import ComponentSync.Time.Instant
/-!
The configuration file of a component directory, `.odo/config.yaml`: a format version, the
component's settings, and when the file was made and last changed.

Written out, the settings leave out every unset optional field and every empty list, and keep
the defaults of the others (`application: app`, `source_type: local`, and so on), in the order
of the settings record.
-/
namespace ComponentSync

structure LocalConfig where
  version : Nat
  component : ComponentSettings
  createdAt : Time.Instant
  updatedAt : Time.Instant

def configVersion : Nat := 1

/-- A new configuration made at `now`, with default settings. -/
def LocalConfig.fresh (now : Time.Instant) : LocalConfig :=
  ⟨configVersion, ComponentSettings.default, now, now⟩

/-- A command written out: its command, and its working directory when set. -/
def CommandSpec.toValue (c : CommandSpec) : Value :=
  .map ([("command", .str c.command)] ++
    match c.workdir with
    | some w => [("workdir", .str w)]
    | none => [])

/-- Settings written out, unset and empty fields left out. -/
def ComponentSettings.toValue (s : ComponentSettings) : Value :=
  let opt (key : String) (v : Option Value) : List (String × Value) :=
    match v with
    | some v => [(key, v)]
    | none => []
  let list (key : String) (v : Value) (empty : Bool) : List (String × Value) :=
    if empty then [] else [(key, v)]
  .map (opt "name" (s.name.map .str) ++
    [("application", .str s.application)] ++
    opt "project" (s.project.map .str) ++
    [("source_type", .str s.sourceType.name)] ++
    opt "source_path" (s.sourcePath.map .str) ++
    opt "image" (s.image.map .str) ++
    [("build_container", .str s.buildContainer), ("run_container", .str s.runContainer)] ++
    opt "destination" (s.destination.map .str) ++
    list "mirror_roots" (Value.strs s.mirrorRoots) s.mirrorRoots.isEmpty ++
    opt "build" (s.build.map CommandSpec.toValue) ++
    opt "run" (s.run.map CommandSpec.toValue) ++
    opt "reload" (s.reload.map CommandSpec.toValue) ++
    list "ports" (.seq (s.ports.map fun (p : Nat) => Value.int (Int.ofNat p))) s.ports.isEmpty ++
    list "ignores" (Value.strs s.ignores) s.ignores.isEmpty ++
    [("storage_size", .str s.storageSize)])

/-- A configuration written out; moments as RFC 3339 text in UTC. -/
def LocalConfig.toValue (c : LocalConfig) : Value :=
  .map [("version", .int c.version), ("component", c.component.toValue),
    ("created_at", .str (c.createdAt.rfc3339 true)), ("updated_at", .str (c.updatedAt.rfc3339 true))]

end ComponentSync
