import ComponentSync.Workspace.Basic
/-!
Archives of source files, as the list of entries a reader gets back. Each listed path becomes
one entry under its relative name: a regular file with its content, a directory, or a symbolic
link with its target, never followed. A path that names nothing is skipped; any other failure
ends the archive, and the entries written before it stay readable.

Names are stored in normal form: empty and `.` components are dropped and the rest joined by
`/`, a trailing `/` kept; a name that climbs with `..` or starts at `/` is refused. A name
that does not fit the 100 bytes of an entry header, or is refused but has at least 100 bytes, is
stored whole, as written, in an extension entry; its first 100 bytes must then pass the rules,
a trailing `..` allowed. Link targets keep a leading `/` and `.` components.
-/
namespace ComponentSync

inductive EntryKind
  | file
  | dir
  | symlink
  deriving DecidableEq, Repr

def EntryKind.name : EntryKind → String
  | .file => "file"
  | .dir => "dir"
  | .symlink => "symlink"

structure ArchiveEntry where
  name : String
  kind : EntryKind
  content : ByteArray
  link : Option String
  mtime : Time.Instant

/-- Why an archive ended early: the message, and the whole name of an entry whose extension
entry was written before its header was refused. -/
structure ArchiveFault where
  message : String
  strayName : Option String

/-- The entries written, and the fault that ended the archive early, if one did. -/
structure ArchiveRun where
  entries : List ArchiveEntry
  failure : Option ArchiveFault

/-- A component of a path text: the top `/`, a `.` that opens the text, `..`, or a name. -/
inductive PathPiece
  | top
  | here
  | up
  | named (s : String)
  deriving DecidableEq, Repr

/-- The components of a path text: repeated and trailing `/` are dropped, and `.` counts only
at the start. -/
def PathPiece.split (text : String) : List PathPiece :=
  let parts := Path.pieces text
  let head : List PathPiece :=
    if text.startsWith "/" then [.top]
    else if parts.head? == some "." then [.here] else []
  let body := (if text.startsWith "/" || parts.head? == some "." then parts.drop 1 else parts)
  head ++ body.filterMap fun p =>
    if p == "" || p == "." then none else if p == ".." then some .up else some (.named p)

def PathPiece.text : PathPiece → String
  | .top => "/"
  | .here => "."
  | .up => ".."
  | .named s => s

/-- The bytes a header field holds for a name. -/
def headerFieldSize : Nat := 100

/-- Joins components with `/`, no `/` after the top one. -/
def joinPieces (pieces : List PathPiece) : String :=
  pieces.foldl (fun acc p =>
    if acc.isEmpty || acc == "/" then acc ++ p.text else acc ++ "/" ++ p.text) ""

/-- Why a name cannot be stored: the reason, the part of it copied into the header before the
fault showed, and whether the extension entry holding the whole name was written already. -/
structure NameFault where
  reason : String
  copied : String
  extensionWritten : Bool

/-- Checks the components of a name in the order they are copied into a header, returning them
with `.` dropped unless it is the only component. A component that climbs with `..` is refused,
except as the last one of a name cut short when `cutShort`: the cut may have ended it in the
middle of a longer component. -/
def keptPieces (cutShort single : Bool) : List PathPiece → List PathPiece →
    Except NameFault (List PathPiece)
  | kept, [] => .ok kept.reverse
  | kept, p :: rest =>
    match p with
    | .top => .error ⟨"paths in archives must be relative", joinPieces kept.reverse, false⟩
    | .up =>
      if cutShort && rest.isEmpty then keptPieces cutShort single (p :: kept) rest
      else .error ⟨"paths in archives must not have `..`", joinPieces kept.reverse, false⟩
    | .here => keptPieces cutShort single (if single then p :: kept else kept) rest
    | .named _ => keptPieces cutShort single (p :: kept) rest

/-- The normal form of a name as a header field holds it: the checked components joined by
`/`, with the trailing `/` kept. -/
def normalName (cutShort : Bool) (rel : String) : Except NameFault String := do
  let pieces := PathPiece.split rel
  let kept ← keptPieces cutShort (pieces.length == 1) [] pieces
  if kept.isEmpty then throw ⟨"paths in archives must have at least one component", "", false⟩
  let body := joinPieces kept
  return if rel.endsWith "/" then body ++ "/" else body

/-- The first `n` bytes of a text, cut back to a character boundary. -/
def utf8Prefix (text : String) (n : Nat) : String :=
  let bytes := text.toUTF8
  let cut := (List.range (min n bytes.size + 1)).reverse.find? fun k =>
    (String.fromUTF8? (bytes.extract 0 k)).isSome
  String.fromUTF8! (bytes.extract 0 (cut.getD 0))

/-- The name an entry is stored under, or why it cannot be stored. A name whose normal form fits
the header field is stored in normal form. Any other name of at least 100 bytes is stored whole
in an extension entry, and the field then holds its first 100 bytes, checked once more with a
trailing `..` allowed; a shorter one is refused for the fault its check found. -/
def entryName (rel : String) : Except NameFault String :=
  let whole : Except NameFault String :=
    match normalName true (utf8Prefix rel headerFieldSize) with
    | .ok _ => .ok rel
    | .error f => .error { f with extensionWritten := true }
  match normalName false rel with
  | .ok name => if name.utf8ByteSize ≤ headerFieldSize then .ok name else whole
  | .error f => if rel.utf8ByteSize < headerFieldSize then .error f else whole

/-- The stored form of a link target: components joined as written, or the whole text when it
does not fit a header field. -/
def linkName (target : String) : String :=
  let body := joinPieces (PathPiece.split target)
  let name := if target.endsWith "/" then body ++ "/" else body
  if name.utf8ByteSize ≤ headerFieldSize then name else target

/-- The text of the full path of a listed entry, as the listing joins it to the root. -/
def joinedText (root : Path) (rel : String) : String :=
  if rel.startsWith "/" then rel else root.render ++ "/" ++ rel

/-- The entry for one listed path: `none` when nothing is there, or the failure that ends the
archive. -/
def archiveEntry (ws : Workspace) (root : Path) (rel : String) :
    Except ArchiveFault (Option ArchiveEntry) :=
  let full := if rel.startsWith "/" then Path.join [] rel else root.join rel
  let shown := joinedText root rel
  let named (kind : EntryKind) (content : ByteArray) (link : Option String) (t : Time.Instant) :
      Except ArchiveFault (Option ArchiveEntry) :=
    match entryName rel with
    | .ok n => .ok (some ⟨n, kind, content, link, t⟩)
    | .error f =>
      .error ⟨f.reason ++ " when setting path for " ++ f.copied,
        if f.extensionWritten then some rel else none⟩
  match ws.lstat full with
  | .error .notFound => .ok none
  | .error e => .error ⟨e.message ++ " when getting metadata for " ++ shown, none⟩
  | .ok (.file content t) => named .file content none t
  | .ok .dir => named .dir ByteArray.empty none ⟨0, 0⟩
  | .ok (.symlink target t) => named .symlink ByteArray.empty (some (linkName target)) t
  | .ok (.socket _) => .error ⟨shown ++ ": socket can not be archived", none⟩

/-- Archives the listed paths, relative to `root`, in order. -/
def ArchiveRun.build (ws : Workspace) (root : Path) : List String → ArchiveRun
  | [] => ⟨[], none⟩
  | rel :: rest =>
    match archiveEntry ws root rel with
    | .error e => ⟨[], some e⟩
    | .ok none => ArchiveRun.build ws root rest
    | .ok (some entry) =>
      let run := ArchiveRun.build ws root rest
      { run with entries := entry :: run.entries }

end ComponentSync
