import ComponentSync.Cli.Failure
import ComponentSync.Cli.Table
import ComponentSync.Config.Store
import ComponentSync.Sync.Scan
import ComponentSync.Sync.Plan
import ComponentSync.Index.Json
/-!
What the next push would send, worked out locally: the component's name, its directory, when
it was last pushed and how long ago, and the files changed and deleted since. It is shown as
JSON, or as a line of summary and a table of pending files.
-/
namespace ComponentSync

structure StatusReport where
  component : Option String
  context : String
  lastSyncAt : Option String
  lastSyncAge : String
  changed : List String
  deleted : List String
  deriving Repr

/-- Builds the status of the component in `context`: its configuration (defaults when there is
none), its ignore rules with `extraIgnores`, a scan of its tree, and its index. -/
def StatusReport.build (ws : Workspace) (context : Path) (extraIgnores : List String)
    (now : Time.Instant) : Except Failure StatusReport := do
  let within (what : String) (chain : List String) : Failure := Failure.within what chain
  let config ← (loadConfigOrFresh ws context now).mapError
    (within "failed to load component config" ·.chain)
  let settings := config.component
  let rules ← (RuleSet.loadFromDir ws context).mapError
    (within "failed to load ignore rules" ·.chain)
  let rules ← (rules.extendLines settings.ignores).mapError
    (within "invalid ignore pattern in component config" ·.chain)
  let rules ← (rules.extendLines extraIgnores).mapError
    (within "invalid --ignore pattern" ·.chain)
  let pending ← (scan ws context rules now).mapError (within "failed to scan source tree" ·.chain)
  let index ← (FileIndex.load ws context now).mapError
    (within "failed to load file index" ·.chain)
  let (at_, age) :=
    if index.isEmpty then (none, "never")
    else (some (index.syncedAt.rfc3339 false), formatAge now index.syncedAt)
  return ⟨settings.name, context.render, at_, age, pending.changed, pending.deleted⟩

/-- A list of strings in indented JSON, at nesting depth one. -/
def jsonLines (items : List String) : String :=
  if items.isEmpty then "[]"
  else "[\n" ++ ",\n".intercalate (items.map fun s => "    " ++ jsonString s) ++ "\n  ]"

def jsonOption : Option String → String
  | some s => jsonString s
  | none => "null"

/-- The report as indented JSON, fields in their order. -/
def StatusReport.toJson (r : StatusReport) : String :=
  "\x7b\n" ++ ",\n".intercalate [
    "  \"component\": " ++ jsonOption r.component,
    "  \"context\": " ++ jsonString r.context,
    "  \"last_sync_at\": " ++ jsonOption r.lastSyncAt,
    "  \"last_sync_age\": " ++ jsonString r.lastSyncAge,
    "  \"changed\": " ++ jsonLines r.changed,
    "  \"deleted\": " ++ jsonLines r.deleted] ++ "\n\x7d"

/-- The report for people: a summary line, then either `nothing to push` or a table of the
pending files and their counts. -/
def StatusReport.toText (r : StatusReport) (version : String) : String :=
  let summary := "odo v" ++ version ++ " | component " ++ r.component.getD "<unnamed>" ++
    " | last push " ++ r.lastSyncAge ++ "\n"
  if r.changed.isEmpty && r.deleted.isEmpty then summary ++ "✓ nothing to push\n"
  else
    let rows := ["file", "change"] :: (r.changed.map fun f => [f, "modified"]) ++
      (r.deleted.map fun f => [f, "deleted"])
    summary ++ Table.rounded rows ++ "\n" ++ toString r.changed.length ++ " changed, " ++
      toString r.deleted.length ++ " deleted. Run 'odo push' to sync them.\n"

end ComponentSync
