import Std.Time
import ComponentSync.Cli.Run
/-!
The `odo` command line on the real file system. The directory a command works in (the
`--context` directory, or the working directory) and the user's preferences file are read into
a workspace; the command runs on that workspace; the files it wrote are written back and the
files it removed are removed. Symbolic links are read as what they lead to.
-/
namespace ComponentSync.Cli

def Command.contextText : Command → Option String
  | .push context .. | .watch context .. | .status context .. => context
  | .configView context | .configSet _ _ context | .configUnset _ context => context

def momentOf (t : IO.FS.SystemTime) : Time.Instant := ⟨t.sec, t.nsec.toNat⟩

/-- Reads the entries of a directory, and everything below them, into the workspace. -/
partial def loadEntries (ws : Workspace) (at_ : Path) (entries : Array IO.FS.DirEntry) :
    IO Workspace :=
  entries.foldlM (fun ws e => do
    let p := e.path
    let here := at_ ++ [e.fileName]
    let md ← p.metadata
    match md.type with
    | .dir => loadEntries (ws.plant here .dir) here (← p.readDir)
    | .file => return ws.plant here (.file (← IO.FS.readBinFile p) (momentOf md.modified))
    | _ => return ws.plant here (.socket (momentOf md.modified))) ws

/-- The nodes of a workspace that are files, with their paths. -/
def fileNodes (ws : Workspace) : List (Path × ByteArray) :=
  ws.nodes.filterMap fun (p, n) => match n with
    | .file content _ => some (p, content)
    | _ => none

def runOnDisk (args : List String) : IO UInt32 := do
  let base ← IO.currentDir
  let cwdText := base.toString
  let home := (← IO.getEnv "HOME").getD "/"
  let contextText := match Command.parse args with
    | .run c => c.contextText
    | _ => none
  let dirText := match contextText with
    | some t => if t.startsWith "/" then t else cwdText ++ "/" ++ t
    | none => cwdText
  let dir := Path.join [] dirText
  let dirFile := { base with toString := dirText }
  let ws ← if (← dirFile.isDir) then loadEntries (Workspace.empty.plant dir .dir) dir (← dirFile.readDir)
    else pure Workspace.empty
  let prefText := home ++ "/.odo/preference.yaml"
  let prefFile := { base with toString := prefText }
  let ws ← if (← prefFile.pathExists) then do
      let md ← prefFile.metadata
      match md.type with
      | .file => pure (ws.plant (Path.join [] prefText)
          (.file (← IO.FS.readBinFile prefFile) (momentOf md.modified)))
      | .dir => pure (ws.plant (Path.join [] prefText) .dir)
      | _ => pure ws
    else pure ws
  let now ← Std.Time.Timestamp.now
  let env : Environment := ⟨ws, Path.join [] cwdText, Path.join [] home,
    ⟨now.toSecondsSinceUnixEpoch.val, 0⟩⟩
  let out := run env args
  for (p, content) in fileNodes out.workspace do
    let changed := match ws.get? p with
      | some (.file before _) => before.toList != content.toList
      | _ => true
    if changed then
      IO.FS.createDirAll { base with toString := Path.render p.dropLast }
      IO.FS.writeBinFile { base with toString := Path.render p } content
  for (p, _) in fileNodes ws do
    if (out.workspace.get? p).isNone then IO.FS.removeFile { base with toString := Path.render p }
  IO.print out.stdout
  IO.eprint out.stderr
  return UInt32.ofNat out.code

end ComponentSync.Cli

def main (args : List String) : IO UInt32 :=
  ComponentSync.Cli.runOnDisk args
