import ComponentSync.Target.Basic
import ComponentSync.Config.Settings
/-!
Commands run in a component's containers to change its files, and how the end of a remote
command is read. Deleting runs one `rm -rf --` over every path below every root (a root's
trailing slashes dropped). Unpacking reads exactly the archive's length from standard input, so
that the command does not wait for the input to close.

A remote command reports how it ended as a status: `Success`, or a failure whose exit code is
the message of the first cause with reason `ExitCode`, read as a 32-bit signed number (`-1`
when there is no such cause or it does not read).
-/
namespace ComponentSync

def deleteCommand (paths roots : List String) : List String :=
  ["rm", "-rf", "--"] ++ roots.flatMap fun root =>
    let root := String.ofList (root.toList.reverse.dropWhile (· == '/')).reverse
    paths.map fun p => root ++ "/" ++ p

/-- The command that unpacks a gzip tar archive of `len` bytes from standard input. -/
def extractCommand (destination : String) (len : Nat) : List String :=
  let dest := shellQuote destination
  ["sh", "-c", "mkdir -p " ++ dest ++ " && head -c " ++ toString len ++ " | tar xzf - -C " ++ dest]

structure StatusCause where
  reason : Option String
  message : Option String
  deriving DecidableEq, Repr

structure ExecStatus where
  status : Option String
  message : Option String
  causes : List StatusCause
  deriving DecidableEq, Repr

/-- Reads a decimal number with an optional sign that fits in 32 signed bits. -/
def readInt32 (s : String) : Option Int :=
  let (neg, digits) := match s.toList with
    | '-' :: rest => (true, rest)
    | '+' :: rest => (false, rest)
    | cs => (false, cs)
  if digits.isEmpty || !digits.all Char.isDigit then none
  else
    let n : Int := digits.foldl (fun acc c => acc * 10 + (c.toNat - '0'.toNat)) 0
    let v := if neg then -n else n
    if -2147483648 ≤ v && v ≤ 2147483647 then some v else none

/-- The outcome a status reports: success, or the failure with its exit code. -/
def checkStatus : Option ExecStatus → Except TargetError Unit
  | none => .error (.backend "exec stream" "remote command ended without reporting a status")
  | some st =>
    if st.status == some "Success" then .ok ()
    else
      let code := match st.causes.find? (·.reason == some "ExitCode") with
        | some c => (c.message.bind readInt32).getD (-1)
        | none => -1
      .error (.exitStatus code (st.message.getD "remote command failed"))

end ComponentSync
