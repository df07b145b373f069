import ComponentSync.Index.Store
import ComponentSync.Ignore
import ComponentSync.Digest.Sha256
/-!
Change detection. A scan walks the source root in name order, skips ignored entries (an ignored
directory is not entered), fingerprints every other file and compares the result with the
stored index:

- a file is changed when the index lacks it or records another digest;
- a file is deleted when the index has it, it is gone, and it is not ignored.

A file whose size and modification time equal the index's entry keeps the recorded digest and
is not read. A symbolic link is an entry of its own, never followed: its digest is that of the
text `symlink:` followed by its target, and its size is the target's length.
-/
namespace ComponentSync

/-- The outcome of a scan: what changed, what was deleted, and the new snapshot. -/
structure Scan where
  changed : List String
  deleted : List String
  snapshot : FileIndex
  deriving Repr

def Scan.isEmpty (s : Scan) : Bool :=
  s.changed.isEmpty && s.deleted.isEmpty

def Scan.files (s : Scan) : List String :=
  s.snapshot.paths

def linkDigest (target : String) : String :=
  Digest.sha256Hex ("symlink:" ++ target).toUTF8

def fingerprint (ws : Workspace) (full : Path) (rel : String) (previous : FileIndex) :
    Except SyncError (Option FileEntry) :=
  match ws.lstat full with
  | .error .notFound => .ok none
  | .error e => .error (.io full.render e)
  | .ok node =>
    let size := node.size
    let modified := node.mtime
    let digest : Except SyncError String :=
      match previous.get? rel, node with
      | some old, _ =>
        if old.size == size && old.modified == modified then .ok old.digest
        else fresh node
      | none, _ => fresh node
    digest.map fun d => some ⟨d, size, modified⟩
where
  fresh (node : Node) : Except SyncError String :=
    match node with
    | .symlink _ _ =>
      match ws.readLink full with
      | .ok target => .ok (linkDigest target)
      | .error e => .error (.io full.render e)
    | _ =>
      match ws.readFile full with
      | .ok content => .ok (Digest.sha256Hex content)
      | .error e => .error (.io full.render e)

/-- Fingerprints every entry below the directory `rel` (relative components) in name order,
adding them to `acc`. -/
def walkFrom (ws : Workspace) (root : Path) (rules : RuleSet) (previous : FileIndex) :
    Nat → List String → FileIndex → Except SyncError FileIndex
  | 0, _, acc => .ok acc
  | fuel + 1, rel, acc =>
    let dir : Path := root ++ rel
    match ws.readDir dir with
    | .error .notFound => .ok acc
    | .error e => .error (.io dir.render e)
    | .ok entries =>
      entries.foldlM (fun acc (name, node) =>
        let parts := rel ++ [name]
        let key := "/".intercalate parts
        if rules.isIgnored key then .ok acc
        else if node.isDir then walkFrom ws root rules previous fuel parts acc
        else
          match fingerprint ws (root ++ parts) key previous with
          | .ok (some e) => .ok (acc.insert key e)
          | .ok none => .ok acc
          | .error err => .error err) acc

def snapshot (ws : Workspace) (root : Path) (rules : RuleSet) (previous : FileIndex)
    (now : Time.Instant) : Except SyncError FileIndex :=
  match ws.readDir root with
  | .error e => .error (.io root.render e)
  | .ok _ => walkFrom ws root rules previous (ws.nodes.length + 1) [] (FileIndex.empty now)

/-- Compares the source root with a given previous index. -/
def scanAgainst (ws : Workspace) (root : Path) (rules : RuleSet) (previous : FileIndex)
    (now : Time.Instant) : Except SyncError Scan := do
  let snap ← snapshot ws root rules previous now
  let changed := snap.files.entries.filterMap fun (path, e) =>
    match previous.get? path with
    | some old => if old.digest == e.digest then none else some path
    | none => some path
  let deleted := previous.paths.filter fun path =>
    !snap.files.contains path && !rules.isIgnored path
  return ⟨changed, deleted, snap⟩

def scan (ws : Workspace) (root : Path) (rules : RuleSet) (now : Time.Instant) :
    Except SyncError Scan := do
  let previous ← FileIndex.load ws root now
  scanAgainst ws root rules previous now

/-- Stores the scan's snapshot as the new index, stamped `now`. -/
def Scan.commit (s : Scan) (ws : Workspace) (root : Path) (now : Time.Instant) :
    Workspace × Except SyncError Unit :=
  FileIndex.save ws root { s.snapshot with syncedAt := now } now

end ComponentSync
