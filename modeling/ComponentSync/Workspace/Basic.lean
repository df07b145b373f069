import ComponentSync.Time.Instant
/-!
A file system held as data. Nodes are keyed by their absolute path, given as its components;
the empty path is the top directory and always exists. Operations follow POSIX: symbolic links
are followed in every component but the last (and in the last for the calls that follow
links), a regular file in the middle of a path is "not a directory", and a path whose text
reaches `pathMax` bytes cannot be used at all.

Failures are values of `OsError`, worded as the system words them.
-/
namespace ComponentSync

inductive OsError
  | notFound
  | noDevice
  | alreadyExists
  | notDirectory
  | isDirectory
  | notEmpty
  | nameTooLong
  | loop
  | invalidUtf8
  | other (msg : String)
  deriving DecidableEq, Repr

def OsError.message : OsError → String
  | .notFound => "No such file or directory (os error 2)"
  | .noDevice => "No such device or address (os error 6)"
  | .alreadyExists => "File exists (os error 17)"
  | .notDirectory => "Not a directory (os error 20)"
  | .isDirectory => "Is a directory (os error 21)"
  | .notEmpty => "Directory not empty (os error 39)"
  | .nameTooLong => "File name too long (os error 36)"
  | .loop => "Too many levels of symbolic links (os error 40)"
  | .invalidUtf8 => "stream did not contain valid UTF-8"
  | .other msg => msg

inductive Node
  | file (content : ByteArray) (mtime : Time.Instant)
  | symlink (target : String) (mtime : Time.Instant)
  | dir
  | socket (mtime : Time.Instant)

/-- The size a node reports: the content length of a file, the target length of a link. -/
def Node.size : Node → Nat
  | .file content _ => content.size
  | .symlink target _ => target.utf8ByteSize
  | .dir => 4096
  | .socket _ => 0

def Node.mtime : Node → Time.Instant
  | .file _ t | .symlink _ t | .socket t => t
  | .dir => ⟨0, 0⟩

/-- The seconds a file system can hold as a modification time, from `earliest` to `latest`.
The range depends on the file system: ext4 holds a few centuries, tmpfs and btrfs any 64-bit
second. -/
structure StampRange where
  earliest : Int
  latest : Int
  ordered : earliest ≤ latest

/-- The range of ext4 with its extra epoch bits: 1901-12-13 to 2446-05-10. -/
def StampRange.ext4 : StampRange := ⟨-2147483648, 15032385535, by decide⟩

/-- Every 64-bit second, the range of tmpfs and btrfs. -/
def StampRange.int64 : StampRange := ⟨-9223372036854775808, 9223372036854775807, by decide⟩

instance : Inhabited StampRange := ⟨.ext4⟩

/-- A time as a file system of this range stores it: seconds outside the range are clamped. -/
def StampRange.store (r : StampRange) (t : Time.Instant) : Time.Instant :=
  ⟨max r.earliest (min r.latest t.secs), t.nanos⟩

/-- A node with its modification time as a file system of this range stores it. -/
def Node.stored (r : StampRange) : Node → Node
  | .file c t => .file c (r.store t)
  | .symlink target t => .symlink target (r.store t)
  | .socket t => .socket (r.store t)
  | .dir => .dir

def Node.isDir : Node → Bool
  | .dir => true
  | _ => false

abbrev Path := List String

/-- The text of a path: `/`, then its components joined by `/`. -/
def Path.render (p : Path) : String :=
  "/" ++ "/".intercalate p

/-- The pieces of a path text between its slashes, empty pieces included. -/
def Path.pieces (text : String) : List String :=
  (text.toList.splitOn '/').map String.ofList

/-- The path below `p` named by a relative text: empty and `.` components are dropped. -/
def Path.join (p : Path) (rel : String) : Path :=
  p ++ (Path.pieces rel).filter fun c => c != "" && c != "."

/-- The longest path text, with its terminating zero, that a call accepts. -/
def pathMax : Nat := 4096

/-- Whether a path is too long for a call. -/
def Path.tooLong (p : Path) : Bool :=
  p.render.utf8ByteSize + 1 > pathMax

/-- A file system: its nodes, and the modification times it can hold. -/
structure Workspace where
  nodes : List (Path × Node)
  stamps : StampRange
  deriving Inhabited

namespace Workspace

/-- The ext4 file system with only the top directory. -/
def empty : Workspace := ⟨[], .ext4⟩

def get? (ws : Workspace) (p : Path) : Option Node :=
  if p.isEmpty then some .dir else (ws.nodes.find? (·.1 == p)).map (·.2)

/-- Stores a node at a canonical path, replacing what was there. -/
def put (ws : Workspace) (p : Path) (n : Node) : Workspace :=
  { ws with nodes := (p, n) :: ws.nodes.filter (·.1 != p) }

/-- Drops the node at a path and everything below it. -/
def drop (ws : Workspace) (p : Path) : Workspace :=
  { ws with nodes := ws.nodes.filter fun (q, _) => !p.isPrefixOf q }

def maxLinks : Nat := 40

/-- The canonical path a path leads to, following links in all components but the last, and
in the last too when `follow`. The result may name no node when the last component is missing;
a missing or non-directory middle component fails. -/
def resolve (ws : Workspace) (p : Path) (follow : Bool) : Except OsError Path :=
  go (p.length + 64 * (maxLinks + 1)) 0 [] p
where
  go : Nat → Nat → Path → List String → Except OsError Path
    | 0, _, _, _ => .error .loop
    | _, _, cur, [] => .ok cur
    | fuel + 1, links, cur, c :: rest =>
      if c == "" || c == "." then go fuel links cur rest
      else if c == ".." then go fuel links cur.dropLast rest
      else
        let next := cur ++ [c]
        match ws.get? next with
        | none => if rest.isEmpty then .ok next else .error .notFound
        | some .dir => go fuel links next rest
        | some (.symlink target _) =>
          if rest.isEmpty && !follow then .ok next
          else if links ≥ maxLinks then .error .loop
          else
            let base := if target.startsWith "/" then [] else cur
            go fuel (links + 1) base (Path.pieces target ++ rest)
        | some _ => if rest.isEmpty then .ok next else .error .notDirectory

/-- The node a path names, the last link not followed. -/
def lstat (ws : Workspace) (p : Path) : Except OsError Node := do
  if p.tooLong then throw .nameTooLong
  let q ← ws.resolve p false
  match ws.get? q with
  | some n => return n
  | none => throw .notFound

def stat (ws : Workspace) (p : Path) : Except OsError Node := do
  if p.tooLong then throw .nameTooLong
  let q ← ws.resolve p true
  match ws.get? q with
  | some n => return n
  | none => throw .notFound

def exists? (ws : Workspace) (p : Path) : Bool :=
  (ws.stat p).toOption.isSome

def isFile (ws : Workspace) (p : Path) : Bool :=
  match ws.stat p with
  | .ok (.file _ _) => true
  | _ => false

def isDir (ws : Workspace) (p : Path) : Bool :=
  match ws.stat p with
  | .ok .dir => true
  | _ => false

/-- The bytes of the file a path leads to. -/
def readFile (ws : Workspace) (p : Path) : Except OsError ByteArray := do
  match ← ws.stat p with
  | .file content _ => return content
  | .dir => throw .isDirectory
  | .socket _ => throw .noDevice
  | .symlink _ _ => throw .loop

/-- The text of the file a path leads to, which must be UTF-8. -/
def readText (ws : Workspace) (p : Path) : Except OsError String := do
  let bytes ← ws.readFile p
  match String.fromUTF8? bytes with
  | some s => return s
  | none => throw .invalidUtf8

/-- The target of the symbolic link at a path. -/
def readLink (ws : Workspace) (p : Path) : Except OsError String := do
  match ← ws.lstat p with
  | .symlink target _ => return target
  | _ => throw (.other "Invalid argument (os error 22)")

/-- The entries of the directory a path leads to, sorted by name. -/
def readDir (ws : Workspace) (p : Path) : Except OsError (List (String × Node)) := do
  if p.tooLong then throw .nameTooLong
  let q ← ws.resolve p true
  match ws.get? q with
  | none => throw .notFound
  | some .dir =>
    let children := ws.nodes.filterMap fun (r, n) =>
      if r.length == q.length + 1 && q.isPrefixOf r then some (r.getLast?.getD "", n) else none
    return children.mergeSort fun a b => a.1 ≤ b.1
  | some _ => throw .notDirectory

def createDir (ws : Workspace) (p : Path) : Except OsError Workspace := do
  if p.tooLong then throw .nameTooLong
  let q ← ws.resolve p false
  match ws.get? q with
  | some _ => throw .alreadyExists
  | none =>
    match ws.get? q.dropLast with
    | some .dir => return ws.put q .dir
    | some _ => throw .notDirectory
    | none => throw .notFound

/-- Creates a directory and its missing parents; an existing directory is fine. -/
def createDirAll (ws : Workspace) (p : Path) : Except OsError Workspace :=
  go p.length p
where
  go : Nat → Path → Except OsError Workspace
    | 0, _ => .ok ws
    | fuel + 1, p =>
      if p.isEmpty then .ok ws
      else
        match ws.createDir p with
        | .ok ws' => .ok ws'
        | .error .notFound =>
          match go fuel p.dropLast with
          | .ok ws' =>
            match ws'.createDir p with
            | .ok ws'' => .ok ws''
            | .error e => if ws'.isDir p then .ok ws' else .error e
          | .error e => .error e
        | .error e => if ws.isDir p then .ok ws else .error e

/-- Writes a file, creating or truncating it; links are followed. -/
def writeFile (ws : Workspace) (p : Path) (content : ByteArray) (now : Time.Instant) :
    Except OsError Workspace := do
  if p.tooLong then throw .nameTooLong
  let q ← ws.resolve p true
  match ws.get? q with
  | some .dir => throw .isDirectory
  | some (.socket _) => throw .noDevice
  | _ =>
    match ws.get? q.dropLast with
    | some .dir => return ws.put q (.file content now)
    | some _ => throw .notDirectory
    | none => throw .notFound

/-- Moves the node at `src` to `dst`, replacing a file there or an empty directory. -/
def rename (ws : Workspace) (src dst : Path) : Except OsError Workspace := do
  if src.tooLong || dst.tooLong then throw .nameTooLong
  let s ← ws.resolve src false
  let d ← ws.resolve dst false
  let node ← match ws.get? s with
    | some n => pure n
    | none => throw .notFound
  match ws.get? d.dropLast with
  | some .dir => pure ()
  | some _ => throw .notDirectory
  | none => throw .notFound
  match ws.get? d with
  | some .dir =>
    if !node.isDir then throw .isDirectory
    if ws.nodes.any fun (r, _) => r.length > d.length && d.isPrefixOf r then throw .notEmpty
  | some _ => if node.isDir then throw .notDirectory
  | none => pure ()
  if s == d then return ws
  let moved := ws.nodes.filterMap fun (r, n) =>
    if s.isPrefixOf r then some (d ++ r.drop s.length, n) else none
  let kept := (ws.drop s).drop d
  return { kept with nodes := moved ++ kept.nodes }

/-- Removes a file or link; a directory is refused. -/
def removeFile (ws : Workspace) (p : Path) : Except OsError Workspace := do
  if p.tooLong then throw .nameTooLong
  let q ← ws.resolve p false
  match ws.get? q with
  | none => throw .notFound
  | some .dir => throw .isDirectory
  | some _ => return ws.drop q

/-- Removes whatever a path names, a directory with everything below it. -/
def removeAll (ws : Workspace) (p : Path) : Except OsError Workspace := do
  let q ← ws.resolve p false
  match ws.get? q with
  | none => throw .notFound
  | some _ => return ws.drop q

def symlink (ws : Workspace) (p : Path) (target : String) (mtime : Time.Instant) :
    Except OsError Workspace := do
  let q ← ws.resolve p false
  match ws.get? q with
  | some _ => throw .alreadyExists
  | none =>
    match ws.get? q.dropLast with
    | some .dir => return ws.put q (.symlink target (ws.stamps.store mtime))
    | some _ => throw .notDirectory
    | none => throw .notFound

/-- Sets the modification time of what a path names, the last link not followed. -/
def setMtime (ws : Workspace) (p : Path) (t : Time.Instant) : Except OsError Workspace := do
  let q ← ws.resolve p false
  match ws.get? q with
  | some (.file c _) => return ws.put q (.file c (ws.stamps.store t))
  | some (.symlink target _) => return ws.put q (.symlink target (ws.stamps.store t))
  | some (.socket _) => return ws.put q (.socket (ws.stamps.store t))
  | some .dir => return ws
  | none => throw .notFound

/-- Puts a node at a path, creating missing parent directories; what stood at the path is
replaced. This is how a prepared tree is laid out, without the limits on path length. -/
def plant (ws : Workspace) (p : Path) (n : Node) : Workspace :=
  let parents := (List.range p.length).map fun i => p.take i
  let ws := parents.foldl (fun ws d =>
    if d.isEmpty then ws
    else match ws.get? d with
      | some .dir => ws
      | _ => (ws.drop d).put d .dir) ws
  (ws.drop p).put p (n.stored ws.stamps)

end Workspace

end ComponentSync
