import ComponentSync.Config.LocalConfig
import ComponentSync.Config.Preference
import ComponentSync.Yaml.Decode
import ComponentSync.Yaml.Emit
import ComponentSync.Time.Rfc3339
/-!
Reading configuration files from YAML: a component's `.odo/config.yaml` and the user's
`preference.yaml`.

Every settings field may be left out and then takes its default. A configuration file must give
its format version and both of its moments; preferences may leave out anything. Moments are
RFC 3339 date-times. Unknown fields are skipped.
-/
namespace ComponentSync

open Yaml

/-- What a moment is called when something else stands in its place. -/
def momentName : String := "an RFC 3339 formatted date and time string"

def textValue : Decoder String := Decoder.text "a string"

def readMomentYaml : Decoder Time.Instant :=
  Decoder.textWith momentName fun t => (Time.Instant.parseRfc3339 t).mapError (·.text)

/-- Reads a command: its command, which must be given, and its working directory. -/
def readCommand : Decoder CommandSpec :=
  Decoder.record "CommandSpec"
    [RecordField.of "command" textValue fun v (c : Option String × Option String) => (some v, c.2),
     RecordField.of "workdir" (Decoder.optional textValue) fun v c => (c.1, v)]
    (none, none)
    fun c _ => match c.1 with
      | some command => .ok ⟨command, c.2⟩
      | none => .error (Schema.missingField "command")

def portMax : Nat := 65535

/-- The fields of the settings, each with how its value is stored. -/
def settingsFields : List (RecordField ComponentSettings) :=
  [RecordField.of "name" (Decoder.optional textValue) fun v s => { s with name := v },
   RecordField.of "application" textValue fun v s => { s with application := v },
   RecordField.of "project" (Decoder.optional textValue) fun v s => { s with project := v },
   RecordField.of "source_type" (Decoder.choice ["local", "binary", "git"]) fun v s =>
     { s with sourceType := match v with
       | "binary" => .binary
       | "git" => .git
       | _ => .local_ },
   RecordField.of "source_path" (Decoder.optional (Decoder.text "path string")) fun v s =>
     { s with sourcePath := v },
   RecordField.of "image" (Decoder.optional textValue) fun v s => { s with image := v },
   RecordField.of "build_container" textValue fun v s => { s with buildContainer := v },
   RecordField.of "run_container" textValue fun v s => { s with runContainer := v },
   RecordField.of "destination" (Decoder.optional textValue) fun v s => { s with destination := v },
   RecordField.of "mirror_roots" (Decoder.sequence textValue) fun v s => { s with mirrorRoots := v },
   RecordField.of "build" (Decoder.optional readCommand) fun v s => { s with build := v },
   RecordField.of "run" (Decoder.optional readCommand) fun v s => { s with run := v },
   RecordField.of "reload" (Decoder.optional readCommand) fun v s => { s with reload := v },
   RecordField.of "ports" (Decoder.sequence (Decoder.unsigned portMax "u16")) fun v s =>
     { s with ports := v },
   RecordField.of "ignores" (Decoder.sequence textValue) fun v s => { s with ignores := v },
   RecordField.of "storage_size" textValue fun v s => { s with storageSize := v }]

def readSettings : Decoder ComponentSettings :=
  Decoder.record "ComponentSettings" settingsFields ComponentSettings.default fun s _ => .ok s

structure ConfigDraft where
  version : Option Nat
  component : ComponentSettings
  createdAt : Option Time.Instant
  updatedAt : Option Time.Instant

def versionMax : Nat := Nat.pow 2 32 - 1

def readLocalConfig : Decoder LocalConfig :=
  Decoder.record "LocalConfig"
    [RecordField.of "version" (Decoder.unsigned versionMax "u32") fun v (c : ConfigDraft) =>
       { c with version := some v },
     RecordField.of "component" readSettings fun v c => { c with component := v },
     RecordField.of "created_at" readMomentYaml fun v c => { c with createdAt := some v },
     RecordField.of "updated_at" readMomentYaml fun v c => { c with updatedAt := some v }]
    ⟨none, ComponentSettings.default, none, none⟩
    fun c _ => match c.version, c.createdAt, c.updatedAt with
      | some v, some made, some changed => .ok ⟨v, c.component, made, changed⟩
      | none, _, _ => .error (Schema.missingField "version")
      | _, none, _ => .error (Schema.missingField "created_at")
      | _, _, none => .error (Schema.missingField "updated_at")

def readPreference : Decoder Preference :=
  Decoder.record "Preference"
    [RecordField.of "push_timeout_secs" (Decoder.unsigned u64Max "u64") fun v (p : Preference) =>
       { p with pushTimeoutSecs := v },
     RecordField.of "poll_interval_ms" (Decoder.unsigned u64Max "u64") fun v p =>
       { p with pollIntervalMs := v },
     RecordField.of "namespace" (Decoder.optional textValue) fun v p => { p with namespace_ := v }]
    Preference.default fun p _ => .ok p

def LocalConfig.ofYaml (text : String) : Except String LocalConfig :=
  (readLocalConfig.runOn text).mapError (·.message)

/-- Preferences read from the text of a preference file. -/
def Preference.ofYaml (text : String) : Except String Preference :=
  (readPreference.runOn text).mapError (·.message)

def LocalConfig.toYaml (c : LocalConfig) : String :=
  c.toValue.toYaml

end ComponentSync
