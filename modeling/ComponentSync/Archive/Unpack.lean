import ComponentSync.Archive.Tar
import ComponentSync.Text.Lossy
/-!
Reading the entries of a tar archive back: each entry's name and content, in order.

Headers are read one block at a time until a block of zeros or the end of the bytes; a header
whose checksum does not match, a number field that does not read, or a header or content cut
short makes the whole archive unreadable. A GNU `L` entry gives the name of the entry after it
(one trailing zero byte dropped), and GNU `K` entries and extended-header entries are read
past without being listed. A header's own name ends at its first zero byte, and a POSIX header
puts its prefix field and a `/` before it.
-/
namespace ComponentSync

/-- The bytes of a field up to its first zero byte. -/
def fieldText (b : ByteArray) (start width : Nat) : ByteArray :=
  let field := b.extract start (start + width)
  match (List.range field.size).find? (fun i => field.get! i == 0) with
  | some i => field.extract 0 i
  | none => field

/-- Reads an octal number field: its text up to the first zero byte, blanks trimmed. -/
def readOctal (b : ByteArray) (start width : Nat) : Option Nat :=
  let text := String.fromUTF8? (fieldText b start width)
  match text with
  | none => none
  | some t =>
    let digits := (t.trimAscii).toString
    if digits.isEmpty || !digits.all (fun c => '0' ≤ c && c ≤ '7') then none
    else some (digits.foldl (fun n c => n * 8 + (c.toNat - 48)) 0)

/-- Reads a number field, in base 256 when its first byte has the high bit set. -/
def readNumber (b : ByteArray) (start width : Nat) : Option Nat :=
  if (b.get! start).toNat ≥ 128 then
    some ((List.range width).foldl (fun n i =>
      n * 256 + (if i == 0 then (b.get! start).toNat - 128 else (b.get! (start + i)).toNat)) 0)
  else readOctal b start width

/-- The name a header holds, with its prefix for a POSIX header. -/
def headerName (h : ByteArray) : ByteArray :=
  let name := fieldText h 0 100
  let posix := h.extract 257 263 == "ustar".toUTF8.push 0 && h.extract 263 265 == "00".toUTF8
  let pre := fieldText h 345 155
  if posix && pre.size > 0 then pre ++ "/".toUTF8 ++ name else name

/-- Reads entries from `at_` on, with a name from a preceding `L` entry if there was one. -/
def readEntries (b : ByteArray) : Nat → Nat → Option ByteArray →
    Option (List (String × ByteArray))
  | 0, _, _ => none
  | fuel + 1, at_, longName =>
    if at_ ≥ b.size then some []
    else if at_ + tarBlock > b.size then none
    else
      let h := b.extract at_ (at_ + tarBlock)
      if h.toList.all (· == 0) then some []
      else
        let sum := (h.extract 0 148).foldl (fun s x => s + x.toNat) 0 + 8 * 32 +
          (h.extract 156 tarBlock).foldl (fun s x => s + x.toNat) 0
        match readOctal h 148 8, readNumber h 124 12 with
        | some ck, some size =>
          if ck != sum then none
          else
            let dataStart := at_ + tarBlock
            let next := dataStart + (size + tarBlock - 1) / tarBlock * tarBlock
            if dataStart + size > b.size then none
            else
              let data := b.extract dataStart (dataStart + size)
              let kind := h.get! 156
              if kind == 76 then
                let name := if data.size > 0 && data.get! (data.size - 1) == 0 then
                  data.extract 0 (data.size - 1) else data
                readEntries b fuel next (some name)
              else if kind == 75 || kind == 120 || kind == 103 then readEntries b fuel next longName
              else
                let name := longName.getD (headerName h)
                (readEntries b fuel next none).map ((Text.lossyText name, data) :: ·)
        | _, _ => none

/-- The entries of a tar archive, or nothing when it does not read. -/
def tarEntries (b : ByteArray) : Option (List (String × ByteArray)) :=
  readEntries b (b.size / tarBlock + 2) 0 none

end ComponentSync
