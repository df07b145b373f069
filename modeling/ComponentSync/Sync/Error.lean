import ComponentSync.Config.Parameters
import ComponentSync.Target.Basic
import ComponentSync.Glob.Pattern
import ComponentSync.Text.Quoted
/-!
The ways a scan or a push fails. Each failure keeps its cause, and its text is the failure's
own words followed by the cause's.
-/
namespace ComponentSync

/-- What stopped a transfer: the target, or the local side while it built the archive. -/
inductive TransferCause
  | target (err : TargetError)
  | local_ (detail : String)
  deriving Repr

def TransferCause.message : TransferCause → String
  | .target err => err.message
  | .local_ detail => detail

inductive SyncError
  | io (path : String) (err : OsError)
  /-- The stored file index could not be read. -/
  | index (path : String) (detail : String)
  | invalidPattern (pattern : String) (err : Glob.PatternError)
  | targetUnavailable (selector : String) (err : TargetError)
  /-- Deleted files could not be removed on the target; nothing was sent. -/
  | deletePropagation (paths : List String) (err : TargetError)
  | transfer (destination : String) (cause : TransferCause)
  /-- A command run on the target failed; `output` is what it printed. -/
  | remoteCommand (command : String) (output : String) (err : TargetError)
  | client (err : TargetError)
  | config (err : ConfigError)
  deriving Repr

def SyncError.message : SyncError → String
  | .io path err => "I/O error at " ++ path ++ ": " ++ err.message
  | .index path detail => "file index error at " ++ path ++ ": " ++ detail
  | .invalidPattern pattern err => "invalid ignore pattern '" ++ pattern ++ "': " ++ err.message
  | .targetUnavailable _ err => "component is not available: " ++ err.message
  | .deletePropagation paths err =>
    "unable to propagate file deletions " ++ Text.quotedList paths ++ ": " ++ err.message
  | .transfer destination cause =>
    "unable to push files to " ++ destination ++ ": " ++ cause.message
  | .remoteCommand command _ err => "unable to run `" ++ command ++ "`: " ++ err.message
  | .client err => "orchestration error: " ++ err.message
  | .config err => "component config error: " ++ err.message

end ComponentSync
