import ComponentSync.Target.Basic
/-!
A target that records every call and answers from a fixed script: it can be told never to
become ready, to refuse deletions, to drop archives, and what a command prints and how it
exits. Its instance is `component-0` in namespace `test`.

A command's scripted lines alternate between standard output and standard error, each sent
with a newline; a nonzero exit code then fails the command.
-/
namespace ComponentSync

inductive Call
  | resolve (selector : String)
  | delete (container : String) (paths roots : List String)
  /-- An archive, as the names and contents of its entries. -/
  | archive (container destination : String) (entries : List (String × ByteArray))
  | exec (container : String) (command : List String)

def Call.kind : Call → String
  | .resolve .. => "resolve"
  | .delete .. => "delete"
  | .archive .. => "archive"
  | .exec .. => "exec"

/-- The script of a recording target and the calls it has received, oldest first. -/
structure Recording where
  neverReady : Bool
  failDelete : Bool
  failArchive : Bool
  exitCode : Int
  output : List String
  calls : List Call

/-- A recording target that answers every call with success. -/
def Recording.fresh : Recording :=
  ⟨false, false, false, 0, [], []⟩

def Recording.callKinds (r : Recording) : List String :=
  r.calls.map Call.kind

/-- The names of every archived entry, across all archive calls. -/
def Recording.archivedPaths (r : Recording) : List String :=
  r.calls.flatMap fun
    | .archive _ _ entries => entries.map (·.1)
    | _ => []

def Recording.note (c : Call) : StateM Recording Unit :=
  modify fun r => { r with calls := r.calls ++ [c] }

def Recording.instance : Instance := ⟨"component-0", some "test"⟩

def Recording.target : Target Recording where
  resolve selector := do
    Recording.note (.resolve selector)
    if (← get).neverReady then return .error (.timeout selector (Time.Duration.ofSecs 0))
    return .ok Recording.instance
  deleteFiles _ container paths roots := do
    Recording.note (.delete container paths roots)
    if (← get).failDelete then
      return .error (.exitStatus 1
        ("rm: cannot remove '" ++ " ".intercalate paths ++ "': Permission denied"))
    return .ok ()
  receive _ container destination run := do
    if (← get).failArchive then return .error (.backend "exec tar" "stream closed")
    Recording.note (.archive container destination (run.entries.map fun e => (e.name, e.content)))
    return .ok ()
  exec _ container command := do
    Recording.note (.exec container command)
    let r ← get
    let chunks := r.output.map fun line => (line ++ "\n").toUTF8
    if r.exitCode != 0 then
      return (chunks, .error (.exitStatus r.exitCode "command terminated with non-zero exit code"))
    return (chunks, .ok ())

/-- A target that only runs commands, each printing the given chunks and ending as given; its
other operations fail. -/
def Target.scripted (chunks : List ByteArray) (ending : Except TargetError Unit) : Target Unit where
  resolve _ := return .error (.backend "resolve" "not available")
  deleteFiles _ _ _ _ := return .error (.backend "delete" "not available")
  receive _ _ _ _ := return .error (.backend "receive" "not available")
  exec _ _ _ := return (chunks, ending)

end ComponentSync
