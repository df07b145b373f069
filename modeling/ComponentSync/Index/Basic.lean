import ComponentSync.Data.SortedMap
import ComponentSync.Time.Instant
/-!
The file index: what was sent by the last successful push. For each path it keeps the content
digest, the size and the modification time the file had then, so that a later scan can tell
which files changed and can skip reading files whose size and time are unchanged.
-/
namespace ComponentSync

structure FileEntry where
  digest : String
  size : Nat
  modified : Time.Instant
  deriving DecidableEq, Repr, Inhabited

/-- The record of a push: its time and the files then present, by relative path. -/
structure FileIndex where
  syncedAt : Time.Instant
  files : SortedMap FileEntry
  deriving Repr, Inhabited

namespace FileIndex

def empty (now : Time.Instant) : FileIndex :=
  ⟨now, SortedMap.empty⟩

def get? (idx : FileIndex) (path : String) : Option FileEntry :=
  idx.files.get? path

def isEmpty (idx : FileIndex) : Bool :=
  idx.files.isEmpty

def insert (idx : FileIndex) (path : String) (e : FileEntry) : FileIndex :=
  { idx with files := idx.files.insert path e }

def paths (idx : FileIndex) : List String :=
  idx.files.keys

end FileIndex

/-- How long ago a moment was, in its largest whole unit: seconds below a minute, minutes below
an hour, hours below a day, else days. A moment in the future is `0s` ago. -/
def formatAge (now t : Time.Instant) : String :=
  let s := (t.secondsUntil now).toNat
  if s < 60 then toString s ++ "s"
  else if s < 3600 then toString (s / 60) ++ "m"
  else if s < 86400 then toString (s / 3600) ++ "h"
  else toString (s / 86400) ++ "d"

end ComponentSync
