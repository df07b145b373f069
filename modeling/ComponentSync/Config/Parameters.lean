import ComponentSync.Config.Settings
import ComponentSync.Text.Blank
import ComponentSync.Workspace.Basic
/-!
The named parameters through which a component's settings are read and changed one at a time.
Names are matched without regard to ASCII case, and errors repeat the name as given. Lists are
written as comma-separated text: items are trimmed and empty items dropped. Ports are decimal
numbers below 65536.
-/
/-!
The ways reading and changing the component configuration fail.
-/
namespace ComponentSync

inductive ConfigError
  | io (path : String) (err : OsError)
  /-- The configuration could not be written as YAML. -/
  | yaml (detail : String)
  /-- A configuration file is not valid YAML of the expected shape. -/
  | parse (path : String) (detail : String)
  | notFound (path : String)
  | unknownParameter (name : String)
  | invalidValue (key value reason : String)
  deriving Repr

def ConfigError.message : ConfigError → String
  | .io path err => "I/O error at " ++ path ++ ": " ++ err.message
  | .yaml detail => "YAML serialization error: " ++ detail
  | .parse path detail => "failed to parse " ++ path ++ ": " ++ detail
  | .notFound path =>
    "no component config found at " ++ path ++ "; run 'odo config set name <component>' first"
  | .unknownParameter name => "unknown parameter '" ++ name ++ "'"
  | .invalidValue key value reason =>
    "invalid value '" ++ value ++ "' for '" ++ key ++ "': " ++ reason

end ComponentSync

namespace ComponentSync

/-- Every parameter with a short description, in the order they are listed. -/
def supportedParameters : List (String × String) :=
  [ ("name", "component name"),
    ("application", "application the component belongs to"),
    ("project", "cluster namespace"),
    ("sourcetype", "local | binary | git"),
    ("sourcepath", "binary file path or git URL"),
    ("image", "container image used by the build and run containers"),
    ("destination", "directory inside the container receiving the sources"),
    ("mirrorroots", "comma-separated extra directories that mirror the sources"),
    ("buildcommand", "command building the sources after each push"),
    ("buildworkdir", "working directory of the build command"),
    ("runcommand", "command started in the run container"),
    ("reloadcommand", "command restarting the application after a build"),
    ("ports", "comma-separated container ports"),
    ("ignore", "comma-separated glob patterns excluded from push"),
    ("storagesize", "size of the project-files volume") ]

def asciiLower (s : String) : String :=
  String.ofList (s.toList.map Char.toLower)

/-- The items of a comma-separated list, trimmed, empty ones dropped. -/
def splitList : Option String → List String
  | none => []
  | some v => ((v.toList.splitOn ',').map fun cs => Text.trimBlank (String.ofList cs)).filter
      (!·.isEmpty)

/-- Items joined by commas, or nothing for no items. -/
def joinList (items : List String) : Option String :=
  if items.isEmpty then none else some (",".intercalate items)

/-- Why a text is not a number of the given bound. -/
inductive NumberFault
  | empty
  | invalidDigit
  | tooLarge
  deriving DecidableEq, Repr

def NumberFault.text : NumberFault → String
  | .empty => "cannot parse integer from empty string"
  | .invalidDigit => "invalid digit found in string"
  | .tooLarge => "number too large to fit in target type"

/-- Reads an unsigned decimal number not above `bound`; one leading `+` is allowed. Digits are
read left to right, and the first fault found stops the reading. -/
def readUnsigned (bound : Nat) (s : String) : Except NumberFault Nat :=
  let cs := s.toList
  if cs.isEmpty then .error .empty
  else
    let digits := match cs with
      | '+' :: rest => rest
      | _ => cs
    if digits.isEmpty then .error .invalidDigit
    else
      digits.foldlM (fun acc c =>
        if c.isDigit then
          let v := acc * 10 + (c.toNat - '0'.toNat)
          if v > bound then .error .tooLarge else .ok v
        else .error .invalidDigit) 0

def maxPort : Nat := 65535

def ComponentSettings.apply (s : ComponentSettings) (key : String) (value : Option String) :
    Except ConfigError ComponentSettings :=
  let invalid (reason : String) : ConfigError := .invalidValue key (value.getD "") reason
  match asciiLower key with
  | "name" => .ok { s with name := value }
  | "application" =>
    .ok { s with application := value.getD ComponentSettings.default.application }
  | "project" => .ok { s with project := value }
  | "sourcetype" =>
    match value with
    | some v => (SourceType.parse v).map (fun t => { s with sourceType := t }) |>.mapError invalid
    | none => .ok { s with sourceType := .local_ }
  | "sourcepath" => .ok { s with sourcePath := value }
  | "image" => .ok { s with image := value }
  | "destination" => .ok { s with destination := value }
  | "mirrorroots" => .ok { s with mirrorRoots := splitList value }
  | "buildcommand" =>
    let workdir := s.build.bind (·.workdir)
    .ok { s with build := value.map fun c => ⟨c, workdir⟩ }
  | "buildworkdir" =>
    match s.build, value with
    | some b, _ => .ok { s with build := some { b with workdir := value } }
    | none, none => .ok s
    | none, some _ => .error (invalid "set buildcommand first")
  | "runcommand" => .ok { s with run := value.map fun c => ⟨c, none⟩ }
  | "reloadcommand" => .ok { s with reload := value.map fun c => ⟨c, none⟩ }
  | "ports" =>
    let read (raw : String) : Except ConfigError Nat :=
      (readUnsigned maxPort raw).mapError fun f =>
        invalid ("'" ++ raw ++ "' is not a port: " ++ f.text)
    (splitList value).mapM read |>.map fun ports => { s with ports := ports }
  | "ignore" => .ok { s with ignores := splitList value }
  | "storagesize" => .ok { s with storageSize := value.getD "1Gi" }
  | _ => .error (.unknownParameter key)

/-- The value of one parameter, or nothing when it is unset. -/
def ComponentSettings.get (s : ComponentSettings) (key : String) :
    Except ConfigError (Option String) :=
  match asciiLower key with
  | "name" => .ok s.name
  | "application" => .ok (some s.application)
  | "project" => .ok s.project
  | "sourcetype" => .ok (some s.sourceType.name)
  | "sourcepath" => .ok s.sourcePath
  | "image" => .ok s.image
  | "destination" => .ok (some s.destinationDir)
  | "mirrorroots" => .ok (joinList s.mirrorRoots)
  | "buildcommand" => .ok (s.build.map (·.command))
  | "buildworkdir" => .ok (s.build.bind (·.workdir))
  | "runcommand" => .ok (s.run.map (·.command))
  | "reloadcommand" => .ok (s.reload.map (·.command))
  | "ports" => .ok (joinList (s.ports.map toString))
  | "ignore" => .ok (joinList s.ignores)
  | "storagesize" => .ok (some s.storageSize)
  | _ => .error (.unknownParameter key)

def ComponentSettings.values (s : ComponentSettings) : List (String × Option String) :=
  supportedParameters.map fun (key, _) => (key, (s.get key).toOption.join)

end ComponentSync
