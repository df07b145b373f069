import ComponentSync.Index.Basic
import ComponentSync.Json.Typed
import ComponentSync.Time.Rfc3339
/-!
The index as a JSON document: an object with `synced_at` and `files`, each file an object with
`digest`, `size` and `modified`. Moments are RFC 3339 strings. Writing indents by two spaces and
keeps the fields in that order; reading accepts the fields in any order, ignores unknown ones,
and rejects a missing or repeated field.
-/
namespace ComponentSync

open Json

/-- What a moment is called when something else stands in its place. -/
def momentExpected : String := "an RFC 3339 formatted date and time string"

/-- Reads a moment written as an RFC 3339 string. -/
def readMoment (cs : List Char) : Except ReadError (Time.Instant × List Char) :=
  match readText momentExpected cs with
  | .error e => .error e
  | .ok (s, rest) =>
    match Time.Instant.parseRfc3339 s with
    | .ok t => .ok (t, rest)
    | .error f => .error (complain f.text rest)

/-- The fields of a file entry as they are being read. -/
structure EntryDraft where
  digest : Option String := none
  size : Option Nat := none
  modified : Option Time.Instant := none

def entryFields : List (RecordField EntryDraft) :=
  [ { name := "digest", present := (·.digest.isSome)
      read := fun st cs => (readText "a string" cs).map fun (v, r) => ({ st with digest := v }, r) },
    { name := "size", present := (·.size.isSome)
      read := fun st cs => (readU64 cs).map fun (v, r) => ({ st with size := v }, r) },
    { name := "modified", present := (·.modified.isSome)
      read := fun st cs => (readMoment cs).map fun (v, r) => ({ st with modified := v }, r) } ]

/-- A file entry once every field is read, or the first missing field. -/
def EntryDraft.finish (d : EntryDraft) : Except String FileEntry :=
  match d.digest, d.size, d.modified with
  | some digest, some size, some modified => .ok ⟨digest, size, modified⟩
  | none, _, _ => .error (Schema.missingField "digest")
  | _, none, _ => .error (Schema.missingField "size")
  | _, _, none => .error (Schema.missingField "modified")

def readEntry (cs : List Char) : Except ReadError (FileEntry × List Char) :=
  readRecord "FileEntry" entryFields {} EntryDraft.finish cs

/-- The fields of an index as they are being read. -/
structure IndexDraft where
  syncedAt : Option Time.Instant := none
  files : Option (SortedMap FileEntry) := none

def indexFields : List (RecordField IndexDraft) :=
  [ { name := "synced_at", present := (·.syncedAt.isSome)
      read := fun st cs => (readMoment cs).map fun (v, r) => ({ st with syncedAt := v }, r) },
    { name := "files", present := (·.files.isSome)
      read := fun st cs =>
        (readMap readEntry cs).map fun (v, r) => ({ st with files := SortedMap.ofList v }, r) } ]

/-- An index once every field is read, or the first missing field. -/
def IndexDraft.finish (d : IndexDraft) : Except String FileIndex :=
  match d.syncedAt, d.files with
  | some t, some files => .ok ⟨t, files⟩
  | none, _ => .error (Schema.missingField "synced_at")
  | _, none => .error (Schema.missingField "files")

/-- Reads an index document, or says what is wrong with it and where. -/
def FileIndex.ofJson (text : String) : Except String FileIndex :=
  let input := text.toList
  match readDocument (readRecord "FileIndex" indexFields {} IndexDraft.finish) input with
  | .ok idx => .ok idx
  | .error e => .error (e.message input)

/-- One character inside a JSON string: quote, backslash and control characters escaped, the
rest as it is. -/
def jsonEscape (c : Char) : String :=
  match c with
  | '"' => "\\\""
  | '\\' => "\\\\"
  | '\n' => "\\n"
  | '\r' => "\\r"
  | '\t' => "\\t"
  | '\x08' => "\\b"
  | '\x0c' => "\\f"
  | c =>
    if c.toNat < 0x20 then
      "\\u00" ++ String.ofList [Nat.digitChar (c.toNat / 16), Nat.digitChar (c.toNat % 16)]
    else c.toString

/-- A string in JSON: quote, backslash and control characters escaped, the rest as it is. -/
def jsonString (s : String) : String :=
  "\"" ++ String.join (s.toList.map jsonEscape) ++ "\""

/-- The JSON text of a file entry, indented for nesting depth `depth`. -/
def FileEntry.toJson (e : FileEntry) (depth : Nat) : String :=
  let pad := String.ofList (List.replicate (2 * (depth + 1)) ' ')
  let close := String.ofList (List.replicate (2 * depth) ' ')
  "\x7b\n" ++ pad ++ "\"digest\": " ++ jsonString e.digest ++ ",\n" ++
    pad ++ "\"size\": " ++ toString e.size ++ ",\n" ++
    pad ++ "\"modified\": " ++ jsonString (e.modified.rfc3339 true) ++ "\n" ++ close ++ "\x7d"

/-- One member of the files object: a path and its entry, indented under the index. -/
def fileMemberJson (member : String × FileEntry) : String :=
  "    " ++ jsonString member.1 ++ ": " ++ member.2.toJson 2

/-- The JSON text of the files object of an index, one member per path. -/
def filesJson (files : SortedMap FileEntry) : String :=
  if files.isEmpty then "\x7b\x7d"
  else "\x7b\n" ++ ",\n".intercalate (files.entries.map fileMemberJson) ++ "\n  \x7d"

/-- The JSON text of an index, indented by two spaces per level. -/
def FileIndex.toJson (idx : FileIndex) : String :=
  "\x7b\n  \"synced_at\": " ++ jsonString (idx.syncedAt.rfc3339 true) ++ ",\n  \"files\": " ++
    filesJson idx.files ++ "\n\x7d"

end ComponentSync
