import ComponentSync.Workspace.Basic
/-!
Changes made to a source tree while a tool works on it: writing a file (its parent directories
made first), making a symbolic link or a directory, removing a file, a link or a whole
directory, and setting the modification time of an entry itself. Paths are relative to the
tree's root.
-/
namespace ComponentSync

inductive Change
  | write (path : String) (content : ByteArray) (mtime : Time.Instant)
  | symlink (path target : String) (mtime : Time.Instant)
  | mkdir (path : String)
  | remove (path : String)
  | touch (path : String) (mtime : Time.Instant)

def Change.path : Change → String
  | .write p .. | .symlink p .. | .mkdir p | .remove p | .touch p _ => p

namespace Workspace

/-- Removes what a path names: a file or link, or a directory with everything in it. -/
def removeEntry (ws : Workspace) (p : Path) : Except OsError Workspace := do
  match ← ws.lstat p with
  | .dir => ws.removeAll p
  | _ => ws.removeFile p

def applyChange (ws : Workspace) (root : Path) (c : Change) : Except OsError Workspace := do
  let p := root.join c.path
  match c with
  | .write _ content mtime =>
    let ws ← ws.createDirAll p.dropLast
    let ws ← ws.writeFile p content mtime
    ws.setMtime p mtime
  | .symlink _ target mtime =>
    let ws ← ws.createDirAll p.dropLast
    ws.symlink p target mtime
  | .mkdir _ => ws.createDirAll p
  | .remove _ => ws.removeEntry p
  | .touch _ mtime => ws.setMtime p mtime

/-- The paths that a change creates, modifies or removes, as a watcher of the tree sees them:
missing parent directories made on the way, the entry itself, and everything below a removed
directory. -/
def touchedBy (ws : Workspace) (root : Path) (c : Change) : List Path :=
  let parts := (Path.join [] c.path)
  let missingPrefixes (upTo : Nat) : List Path :=
    ((List.range upTo).map (· + 1)).filterMap fun n =>
      if ws.isDir (root ++ parts.take n) then none else some (root ++ parts.take n)
  match c with
  | .write .. | .symlink .. => missingPrefixes (parts.length - 1) ++ [root ++ parts]
  | .mkdir _ => missingPrefixes parts.length
  | .touch .. => [root ++ parts]
  | .remove _ =>
    let full := root ++ parts
    let below := ws.nodes.filterMap fun (q, _) =>
      if q.length > full.length && full.isPrefixOf q then some q else none
    below ++ [full]

end Workspace

end ComponentSync
