import ComponentSync.Config.Read
import ComponentSync.Config.Parameters
/-!
Configuration files in a workspace. A component's configuration lives in
`<context>/.odo/config.yaml`; the user's preferences in `<home>/.odo/preference.yaml`.

Saving creates `.odo` when missing, writes the text to `config.yaml.tmp` beside the file and
then moves it into place, so a reader never sees half a file. Setting a parameter starts from a
fresh configuration when none exists yet; clearing one needs an existing configuration.
-/
namespace ComponentSync

def odoDir (context : Path) : Path := context ++ [".odo"]

def configPath (context : Path) : Path := odoDir context ++ ["config.yaml"]

/-- The file a configuration is written to before it is moved into place. -/
def configDraftPath (context : Path) : Path := odoDir context ++ ["config.yaml.tmp"]

def preferencePath (home : Path) : Path := home ++ [".odo", "preference.yaml"]

def readConfigFile {α : Type} (ws : Workspace) (path : Path) (parse : String → Except String α) :
    Except ConfigError α := do
  let text ← (ws.readText path).mapError (ConfigError.io path.render)
  (parse text).mapError (ConfigError.parse path.render)

def loadConfig (ws : Workspace) (context : Path) : Except ConfigError LocalConfig :=
  let path := configPath context
  if !ws.exists? path then .error (.notFound path.render)
  else readConfigFile ws path LocalConfig.ofYaml

/-- The configuration of the component in `context`, or a fresh one made at `now` when there
is none. -/
def loadConfigOrFresh (ws : Workspace) (context : Path) (now : Time.Instant) :
    Except ConfigError LocalConfig :=
  match loadConfig ws context with
  | .error (.notFound _) => .ok (LocalConfig.fresh now)
  | r => r

def saveConfig (ws : Workspace) (context : Path) (c : LocalConfig) (now : Time.Instant) :
    Except ConfigError Workspace := do
  let dir := odoDir context
  let ws ← (ws.createDirAll dir).mapError (ConfigError.io dir.render)
  let draft := configDraftPath context
  let ws ← (ws.writeFile draft c.toYaml.toUTF8 now).mapError (ConfigError.io draft.render)
  let path := configPath context
  (ws.rename draft path).mapError (ConfigError.io path.render)

/-- Sets one parameter and saves the configuration, creating it if needed. -/
def setParameter (ws : Workspace) (context : Path) (key value : String) (now : Time.Instant) :
    Except ConfigError (Workspace × LocalConfig) := do
  let c ← loadConfigOrFresh ws context now
  let component ← c.component.apply key (some value)
  let c := { c with component, updatedAt := now }
  return (← saveConfig ws context c now, c)

/-- Clears one parameter back to its default and saves the configuration. -/
def unsetParameter (ws : Workspace) (context : Path) (key : String) (now : Time.Instant) :
    Except ConfigError (Workspace × LocalConfig) := do
  let c ← loadConfig ws context
  let component ← c.component.apply key none
  let c := { c with component, updatedAt := now }
  return (← saveConfig ws context c now, c)

/-- The preferences of the user whose home is `home`; the defaults when the file is absent. -/
def loadPreference (ws : Workspace) (home : Path) : Except ConfigError Preference :=
  let path := preferencePath home
  if !ws.exists? path then .ok Preference.default
  else readConfigFile ws path Preference.ofYaml

end ComponentSync
