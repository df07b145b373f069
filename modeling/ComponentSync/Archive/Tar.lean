import ComponentSync.Archive.Basic
/-!
The bytes of an archive in the tar format with GNU headers. Each entry is a 512-byte header
followed by its content padded to a multiple of 512 bytes, and the archive ends with two blocks
of zeros, also when it ended early on a failure.

A header records the entry's name, its permission and type bits, owner and group 0, its size
and modification time, its type and, for a link, its target; the GNU magic and two device
numbers of 0; and a checksum, the sum of all header bytes with the checksum field counted as
spaces. Regular files carry mode `100644`, directories `40755` and links `120777`.

Numbers are written in octal, right-aligned with leading zeros and a final zero byte. A number
too large for its field (from 2^21 in the eight-byte fields, from 2^33 in the twelve-byte
ones) is written in base 256 instead, its first byte marked with the high bit.

A name or link target is written into its 100-byte field one component at a time, each but
the first after a `/`; writing a name stops at a component the naming rules refuse. When it does
not fit, what did fit stays in the field, and the whole text goes into an extension entry of its
own placed before the entry, named `././@LongLink`, of type `L` for a name and `K` for a link; a
name is then written into its field once more, cut to its first 100 bytes. When that cut name
is refused, the archive ends after the extension entry.
-/
namespace ComponentSync

def tarBlock : Nat := 512

/-- Writes bytes into an array from an offset on. -/
def writeBytes (b : ByteArray) (at_ : Nat) (bytes : List UInt8) : ByteArray :=
  bytes.zipIdx.foldl (fun b (x, i) => b.set! (at_ + i) x) b

/-- The octal digits of a number, most significant first. -/
def octalDigits (n : Nat) : List Nat :=
  if n == 0 then [0] else go n n []
where
  go : Nat → Nat → List Nat → List Nat
    | 0, _, acc => acc
    | fuel + 1, n, acc => if n == 0 then acc else go fuel (n / 8) (n % 8 :: acc)

/-- The bytes of a number field of `width` bytes. -/
def numberField (value width : Nat) : List UInt8 :=
  let limit := if width == 8 then Nat.pow 2 21 else Nat.pow 2 33
  if value ≥ limit then
    let body := (List.range 8).reverse.map fun k => UInt8.ofNat (value / Nat.pow 256 k % 256)
    let all := List.replicate (width - 8) (0 : UInt8) ++ body
    match all with
    | first :: rest => (first ||| 0x80) :: rest
    | [] => []
  else octalText value width

where
  /-- The octal text of a number over `width - 1` bytes, then a zero byte. -/
  octalText (value width : Nat) : List UInt8 :=
    let digits := octalDigits value
    let kept := digits.drop (digits.length - (width - 1))
    (List.replicate (width - 1 - kept.length) '0' ++ kept.map fun d => Char.ofNat (48 + d)).map
      (fun c => UInt8.ofNat c.toNat) ++ [0]

/-- The octal field of a number, without switching to base 256. -/
def octalField (value width : Nat) : List UInt8 :=
  numberField.octalText value width

/-- A field being filled with path components: its bytes and the offset written up to. -/
structure PathField where
  bytes : ByteArray
  used : Nat

/-- Copies bytes into the field at its offset, followed by a zero byte when there is room;
nothing is written when they do not fit. -/
def PathField.copy (f : PathField) (bytes : List UInt8) : Option PathField :=
  if f.used + bytes.length > f.bytes.size then none
  else
    let b := writeBytes f.bytes f.used bytes
    let b := if f.used + bytes.length < b.size then b.set! (f.used + bytes.length) 0 else b
    some ⟨b, f.used + bytes.length⟩

/-- Writes path components into a field; the field as left, and whether everything fit. -/
def PathField.writePieces (f : PathField) (pieces : List PathPiece) (trailing : Bool) :
    PathField × Bool :=
  let step (acc : PathField × Bool × Bool) (p : PathPiece) : PathField × Bool × Bool :=
    let (f, ok, slash) := acc
    if !ok then acc
    else
      let withSlash := if slash then f.copy [47] else some f
      match withSlash with
      | none => (f, false, slash)
      | some f =>
        match f.copy p.text.toUTF8.toList with
        | none => (f, false, slash)
        | some f => (f, true, p.text != "/")
  let (f, ok, _) := pieces.foldl step (f, true, false)
  if ok && trailing then
    match f.copy [47] with
    | some f => (f, true)
    | none => (f, false)
  else (f, ok)

/-- The pieces of a name as written in a header: `.` only when it is the whole name. -/
def namePieces (text : String) : List PathPiece :=
  let pieces := PathPiece.split text
  if pieces.length == 1 then pieces else pieces.filter (· != .here)

/-- The bytes of a block holding `data`, zero-padded to whole blocks. -/
def padded (data : ByteArray) : ByteArray :=
  data ++ ByteArray.mk (Array.replicate ((tarBlock - data.size % tarBlock) % tarBlock) 0)

/-- A header with every field filled in but the checksum. -/
def headerWith (name link : ByteArray) (mode size mtime : Nat) (kind : Char) : ByteArray :=
  let b := ByteArray.mk (Array.replicate tarBlock 0)
  let b := writeBytes b 0 name.toList
  let b := writeBytes b 100 (octalField mode 8)
  let b := writeBytes b 108 (numberField 0 8)
  let b := writeBytes b 116 (numberField 0 8)
  let b := writeBytes b 124 (numberField size 12)
  let b := writeBytes b 136 (numberField mtime 12)
  let b := b.set! 156 (UInt8.ofNat kind.toNat)
  let b := writeBytes b 157 link.toList
  let b := writeBytes b 257 "ustar ".toUTF8.toList
  let b := writeBytes b 263 [32, 0]
  let b := writeBytes b 329 (octalField 0 8)
  let b := writeBytes b 337 (octalField 0 8)
  let sum := (b.extract 0 148).foldl (fun s x => s + x.toNat) 0 + 8 * 32 +
    (b.extract 156 tarBlock).foldl (fun s x => s + x.toNat) 0
  writeBytes b 148 (octalField sum 8)

/-- The extension entry carrying a whole name or link target. -/
def longLinkEntry (text : String) (kind : Char) : ByteArray :=
  let data := text.toUTF8.push 0
  let name := "././@LongLink".toUTF8
  let b := ByteArray.mk (Array.replicate tarBlock 0)
  let b := writeBytes b 0 name.toList
  let b := writeBytes b 100 (octalField 0o644 8)
  let b := writeBytes b 108 (numberField 0 8)
  let b := writeBytes b 116 (numberField 0 8)
  let b := writeBytes b 124 (numberField data.size 12)
  let b := writeBytes b 136 (numberField 0 12)
  let b := b.set! 156 (UInt8.ofNat kind.toNat)
  let b := writeBytes b 257 "ustar ".toUTF8.toList
  let b := writeBytes b 263 [32, 0]
  let sum := (b.extract 0 148).foldl (fun s x => s + x.toNat) 0 + 8 * 32 +
    (b.extract 156 tarBlock).foldl (fun s x => s + x.toNat) 0
  writeBytes b 148 (octalField sum 8) ++ padded data

def EntryKind.mode : EntryKind → Nat
  | .file => 0o100644
  | .dir => 0o40755
  | .symlink => 0o120777

def EntryKind.flag : EntryKind → Char
  | .file => '0'
  | .dir => '5'
  | .symlink => '2'

/-- The blocks of one entry: extension entries, header and padded content. -/
def ArchiveEntry.blocks (e : ArchiveEntry) : ByteArray :=
  let empty : PathField := ⟨ByteArray.mk (Array.replicate 100 0), 0⟩
  let pieces := namePieces e.name
  -- the first attempt stops at a component the rules refuse
  let checked := pieces.takeWhile fun p => p != .top && p != .up
  let whole := checked.length == pieces.length
  let (nameField, fits) := empty.writePieces checked (whole && e.name.endsWith "/")
  let nameFits := fits && whole
  let (nameExt, nameField) :=
    if nameFits then (ByteArray.empty, nameField)
    else
      let cut := utf8Prefix e.name 100
      let (again, _) := (⟨nameField.bytes, 0⟩ : PathField).writePieces (namePieces cut)
        (cut.endsWith "/")
      (longLinkEntry e.name 'L', again)
  let (linkExt, linkField) := match e.link with
    | none => (ByteArray.empty, empty)
    | some target =>
      let (f, fits) := empty.writePieces (PathPiece.split target) (target.endsWith "/")
      if fits then (ByteArray.empty, f) else (longLinkEntry target 'K', f)
  let size := if e.kind == .file then e.content.size else 0
  let mtime := e.mtime.secs.toNat + (if e.mtime.secs < 0 then Nat.pow 2 64 - e.mtime.secs.natAbs else 0)
  let header := headerWith nameField.bytes linkField.bytes e.kind.mode size mtime e.kind.flag
  nameExt ++ linkExt ++ header ++ (if e.kind == .file then padded e.content else ByteArray.empty)

/-- The tar bytes of an archive run: its entries, the extension entry of a name refused after it
was written, and two zero blocks. -/
def ArchiveRun.tarBytes (run : ArchiveRun) : ByteArray :=
  let stray := match run.failure.bind (·.strayName) with
    | some name => longLinkEntry name 'L'
    | none => ByteArray.empty
  run.entries.foldl (fun acc e => acc ++ e.blocks) ByteArray.empty ++ stray ++
    ByteArray.mk (Array.replicate (2 * tarBlock) 0)

end ComponentSync
