import ComponentSync.Sync.Error
/-!
Failures as the command line reports them: what was being done, then each underlying cause in
turn, outermost first. A report reads `Error: <what>`, then, when there are causes, a blank
line, `Caused by:` and the causes indented by four spaces; two or more causes are numbered.
-/
namespace ComponentSync

def ConfigError.chain (e : ConfigError) : List String :=
  match e with
  | .io _ err => [e.message, err.message]
  | .parse _ detail => [e.message, detail]
  | _ => [e.message]

def TargetError.chain (e : TargetError) : List String :=
  match e with
  | .backend _ cause => [e.message, cause]
  | _ => [e.message]

def SyncError.chain (e : SyncError) : List String :=
  match e with
  | .io _ err => [e.message, err.message]
  | .index _ detail => [e.message, detail]
  | .invalidPattern _ err => [e.message, err.message]
  | .targetUnavailable _ err | .deletePropagation _ err | .remoteCommand _ _ err | .client err =>
    e.message :: err.chain
  | .transfer _ (.target err) => e.message :: err.chain
  | .transfer _ (.local_ detail) => [e.message, detail]
  | .config err => e.message :: err.chain

/-- A failure of a command: what it was doing, then the causes. -/
structure Failure where
  chain : List String
  deriving Repr

def Failure.plain (text : String) : Failure := ⟨[text]⟩

/-- Puts a failure under a description of what was being done. -/
def Failure.within (context : String) (causes : List String) : Failure :=
  ⟨context :: causes⟩

/-- A cause's text indented under `Caused by:`: numbered causes start with the number right
aligned in five places and `: `, later lines of a cause are indented to match. -/
def indentCause (number : Option Nat) (text : String) : String :=
  let first := match number with
    | some n =>
      let s := toString n
      String.ofList (List.replicate (5 - s.length) ' ') ++ s ++ ": "
    | none => "    "
  let rest := if number.isSome then "       " else "    "
  first ++ ("\n" ++ rest).intercalate (text.splitOn "\n")

/-- The report of a failure, ended by a line feed. -/
def Failure.render (f : Failure) : String :=
  match f.chain with
  | [] => "Error: \n"
  | what :: causes =>
    let numbered := causes.length > 1
    let lines := causes.zipIdx.map fun (c, i) =>
      "\n" ++ indentCause (if numbered then some i else none) c
    "Error: " ++ what ++ (if causes.isEmpty then "" else "\n\nCaused by:" ++ String.join lines) ++
      "\n"

end ComponentSync
