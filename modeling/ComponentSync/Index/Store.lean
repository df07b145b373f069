import ComponentSync.Index.Json
import ComponentSync.Sync.Error
/-!
Where the index lives and how it is read and written: `.odo/odo-file-index.json` under the
source root. A missing file is an empty index. Writing goes through a temporary file that is
then renamed over the index, so a reader never sees half an index; when the rename fails the
temporary file is removed.
-/
namespace ComponentSync

def toolDir : String := ".odo"

def indexPath (root : Path) : Path :=
  root ++ [toolDir, "odo-file-index.json"]

/-- The temporary file the index is written to before it is renamed into place. -/
def indexTempPath (root : Path) : Path :=
  root ++ [toolDir, "odo-file-index.json.tmp"]

/-- Reads the index of a source root; no file means an empty index made at `now`. -/
def FileIndex.load (ws : Workspace) (root : Path) (now : Time.Instant) :
    Except SyncError FileIndex :=
  let p := indexPath root
  if !ws.exists? p then .ok (FileIndex.empty now)
  else
    match ws.readText p with
    | .error e => .error (.io p.render e)
    | .ok text =>
      match FileIndex.ofJson text with
      | .ok idx => .ok idx
      | .error detail => .error (.index p.render detail)

/-- Writes the index of a source root. The file system is returned also when writing fails,
since directories may have been made by then. -/
def FileIndex.save (ws : Workspace) (root : Path) (idx : FileIndex) (now : Time.Instant) :
    Workspace × Except SyncError Unit :=
  let p := indexPath root
  let dir : Path := p.dropLast
  match ws.createDirAll dir with
  | .error e => (ws, .error (.io dir.render e))
  | .ok ws =>
    let tmp := indexTempPath root
    match ws.writeFile tmp idx.toJson.toUTF8 now with
    | .error e => (ws, .error (.io tmp.render e))
    | .ok ws =>
      match ws.rename tmp p with
      | .ok ws => (ws, .ok ())
      | .error e =>
        let ws := (ws.removeFile tmp).toOption.getD ws
        (ws, .error (.io p.render e))

end ComponentSync
