import ComponentSync.Text.Quoted
/-!
The ways preparing a component's cluster resources fails: a call to the API server failed, the
component has no name, or it has no image to run. A call fails when the server answers with an
error, when the request cannot be formed because its path is not a valid URI, or when the
server refuses to open a command stream.

A refusal is reported with what was being done, then the server's message and reason, then the
whole answer as a record (its message quoted with escapes).
-/
namespace ComponentSync

structure ApiFailure where
  status : String
  message : String
  reason : String
  code : Nat
  deriving DecidableEq, Repr

def ApiFailure.render (f : ApiFailure) : String :=
  "ApiError: " ++ f.message ++ ": " ++ f.reason ++ " (ErrorResponse \x7b status: " ++
    Text.quoted f.status ++ ", message: " ++ Text.quoted f.message ++ ", reason: " ++
    Text.quoted f.reason ++ ", code: " ++ toString f.code ++ " \x7d)"

/-- The standard reason phrase of an HTTP status code. -/
def reasonPhrase (code : Nat) : Option String :=
  [(100, "Continue"), (101, "Switching Protocols"), (102, "Processing"), (200, "OK"),
    (201, "Created"), (202, "Accepted"), (203, "Non Authoritative Information"),
    (204, "No Content"), (205, "Reset Content"), (206, "Partial Content"),
    (207, "Multi-Status"), (208, "Already Reported"), (226, "IM Used"),
    (300, "Multiple Choices"), (301, "Moved Permanently"), (302, "Found"), (303, "See Other"),
    (304, "Not Modified"), (305, "Use Proxy"), (307, "Temporary Redirect"),
    (308, "Permanent Redirect"), (400, "Bad Request"), (401, "Unauthorized"),
    (402, "Payment Required"), (403, "Forbidden"), (404, "Not Found"),
    (405, "Method Not Allowed"), (406, "Not Acceptable"),
    (407, "Proxy Authentication Required"), (408, "Request Timeout"), (409, "Conflict"),
    (410, "Gone"), (411, "Length Required"), (412, "Precondition Failed"),
    (413, "Payload Too Large"), (414, "URI Too Long"), (415, "Unsupported Media Type"),
    (416, "Range Not Satisfiable"), (417, "Expectation Failed"), (418, "I'm a teapot"),
    (421, "Misdirected Request"), (422, "Unprocessable Entity"), (423, "Locked"),
    (424, "Failed Dependency"), (426, "Upgrade Required"), (428, "Precondition Required"),
    (429, "Too Many Requests"), (431, "Request Header Fields Too Large"),
    (451, "Unavailable For Legal Reasons"), (500, "Internal Server Error"),
    (501, "Not Implemented"), (502, "Bad Gateway"), (503, "Service Unavailable"),
    (504, "Gateway Timeout"), (505, "HTTP Version Not Supported"),
    (506, "Variant Also Negotiates"), (507, "Insufficient Storage"), (508, "Loop Detected"),
    (510, "Not Extended"), (511, "Network Authentication Required")].lookup code

/-- An HTTP status as text: its code and reason phrase. -/
def statusLine (code : Nat) : String :=
  toString code ++ " " ++ (reasonPhrase code).getD "<unknown status code>"

inductive KubeFault
  /-- The server answered with an error. -/
  | api (failure : ApiFailure)
  /-- The request's path holds a character a URI cannot hold, so it was never sent. -/
  | invalidUri
  /-- The server refused to switch the connection to a command stream. -/
  | upgrade (code : Nat)
  deriving DecidableEq, Repr

def KubeFault.render : KubeFault → String
  | .api failure => failure.render
  | .invalidUri => "Failed to build request: failed to build request: invalid uri character"
  | .upgrade code =>
    "failed to upgrade to a WebSocket connection: failed to switch protocol: " ++ statusLine code

inductive ClusterError
  /-- A call failed; `context` says what was being done. -/
  | kube (context : String) (fault : KubeFault)
  | missingName
  | missingImage (component : String)
  deriving Repr

def ClusterError.message : ClusterError → String
  | .kube context fault => context ++ ": " ++ fault.render
  | .missingName => "component name is not set; run 'odo config set name <component>'"
  | .missingImage component =>
    "component '" ++ component ++ "' has no image; run 'odo config set image <image>'"

end ComponentSync
