import ComponentSync.Cluster.Error
import ComponentSync.Cluster.Exec
import ComponentSync.Yaml.Emit
/-!
Talking to a cluster's API server. A plain request names a method, a path and query pairs, and
may carry a document; the server answers with a document or with an error status. A command
request opens a stream instead: the server either refuses it with an HTTP status, or runs the
command, feeding it the request's input, and sends back its output, chunk by chunk on standard
output or standard error, and then, unless the stream is cut, how the command ended.

A request is formed before it is sent, and forming it fails when its path holds a character a
URI path cannot hold unescaped: a space, a control or non-ASCII character, `<`, `>` or the
backquote. Query values are always escaped, so they never fail.
-/
namespace ComponentSync

structure ApiRequest where
  method : String
  path : String
  query : List (String × String)
  body : Option Value
  contentType : Option String

def ApiRequest.get (path : String) (query : List (String × String)) : ApiRequest :=
  ⟨"GET", path, query, none, none⟩

inductive ApiAnswer
  | ok (body : Value)
  | failed (failure : ApiFailure)

/-- The stream a chunk of command output came on. -/
inductive OutputStream
  | stdout
  | stderr
  deriving DecidableEq, Repr

inductive ExecAnswer
  /-- The server refused to open the stream, with this HTTP status. -/
  | refused (code : Nat)
  /-- The command ran: its output in order, then its status unless the stream was cut. -/
  | ran (output : List (OutputStream × ByteArray)) (status : Option ExecStatus)

structure ApiServer (σ : Type) where
  /-- Answers a plain request. -/
  send : ApiRequest → StateM σ ApiAnswer
  /-- Runs a command request with the given input. -/
  exec : ApiRequest → Option ByteArray → StateM σ ExecAnswer

/-- Whether a character may stand unescaped in the path of a request URI. -/
def uriPathChar (c : Char) : Bool :=
  let n := c.toNat
  n == 0x21 || n == 0x22 || n == 0x23 || (0x24 ≤ n && n ≤ 0x3B) || n == 0x3D ||
    (0x3F ≤ n && n ≤ 0x5F) || (0x61 ≤ n && n ≤ 0x7B) || n == 0x7C || n == 0x7D || n == 0x7E

def ApiRequest.wellFormed (r : ApiRequest) : Bool :=
  r.path.all uriPathChar

def ApiServer.call {σ : Type} (srv : ApiServer σ) (r : ApiRequest) :
    StateM σ (Except KubeFault Value) := do
  if !r.wellFormed then return .error .invalidUri
  match ← srv.send r with
  | .ok body => return .ok body
  | .failed f => return .error (.api f)

/-- A field of a document that is a record. -/
def Value.field (v : Value) (key : String) : Option Value :=
  match v with
  | .map entries => entries.lookup key
  | _ => none

/-- The text of a document that is a string. -/
def Value.text? : Value → Option String
  | .str s => some s
  | _ => none

/-- The items of a document that is a list. -/
def Value.items : Value → List Value
  | .seq items => items
  | _ => []

def Value.objectName (v : Value) : String :=
  ((v.field "metadata").bind (·.field "name") |>.bind Value.text?).getD ""

end ComponentSync
