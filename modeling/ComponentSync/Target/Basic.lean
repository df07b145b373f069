import ComponentSync.Archive.Basic
import ComponentSync.Time.Duration
/-!
What a push needs from the place where the component runs: find a running instance, remove
files there, unpack an archive there, and run a command there while its output streams back.
A target is given by these four operations on a state of its own, so that one push can be run
against any target, and a recorded one can be inspected afterwards.
-/
/-!
The running instance that receives files and commands, and the ways talking to it fails.
-/
namespace ComponentSync

/-- A running instance of the component: its name and, when known, its namespace. -/
structure Instance where
  name : String
  namespace_ : Option String
  deriving DecidableEq, Repr

/-- The text of an instance: `namespace/name`, or the name alone. -/
def Instance.render (i : Instance) : String :=
  match i.namespace_ with
  | some ns => ns ++ "/" ++ i.name
  | none => i.name

inductive TargetError
  /-- No running instance matched the selector in the time allowed. -/
  | timeout (selector : String) (waited : Time.Duration)
  /-- A remote command ended with a nonzero code. -/
  | exitStatus (code : Int) (message : String)
  /-- The transport failed; `context` says during what. -/
  | backend (context : String) (cause : String)
  deriving Repr

def TargetError.message : TargetError → String
  | .timeout selector waited =>
    "no running instance matched '" ++ selector ++ "' within " ++ waited.render
  | .exitStatus code message => "command exited with code " ++ toString code ++ ": " ++ message
  | .backend context cause => context ++ ": " ++ cause

end ComponentSync

namespace ComponentSync

/-- The operations of a target over its state `σ`. -/
structure Target (σ : Type) where
  /-- Waits for a running instance matched by a label selector. -/
  resolve : String → StateM σ (Except TargetError Instance)
  /-- Removes relative paths below each of the roots, inside a container. -/
  deleteFiles : Instance → String → List String → List String → StateM σ (Except TargetError Unit)
  /-- Unpacks an archive into a destination directory, inside a container. -/
  receive : Instance → String → String → ArchiveRun → StateM σ (Except TargetError Unit)
  /-- Runs a command inside a container: its output chunks in arrival order, then how it
  ended. -/
  exec : Instance → String → List String → StateM σ (List ByteArray × Except TargetError Unit)

end ComponentSync
