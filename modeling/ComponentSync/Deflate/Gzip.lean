import ComponentSync.Deflate.Compress
import ComponentSync.Deflate.Inflate
/-!
The gzip format (RFC 1952): a ten-byte header, a deflate stream, and a trailer holding the CRC-32
of the uncompressed bytes and their length modulo 2^32, both little endian.

Written streams carry no name, comment or time, no extra flags, and 255 (unknown) as the
operating system. Reading accepts the optional header fields, and rejects a stream whose
checksum or length does not match what it decompresses to.
-/
namespace ComponentSync.Deflate

/-- The CRC-32 table entry of a byte (the reflected polynomial `0xEDB88320`). -/
def crcEntry (n : Nat) : Nat :=
  (List.range 8).foldl (fun c _ => if c % 2 == 1 then (c / 2) ^^^ 0xEDB88320 else c / 2) n

def crcTable : Array Nat := (List.range 256).toArray.map crcEntry

def crc32 (bytes : ByteArray) : Nat :=
  let c := bytes.foldl (fun c b => (crcTable.getD ((c ^^^ b.toNat) % 256) 0) ^^^ (c / 256))
    0xFFFFFFFF
  c ^^^ 0xFFFFFFFF

def le32 (n : Nat) : ByteArray :=
  ByteArray.mk #[UInt8.ofNat n, UInt8.ofNat (n / 256), UInt8.ofNat (n / 65536),
    UInt8.ofNat (n / 16777216)]

def readLe32 (b : ByteArray) (at_ : Nat) : Nat :=
  (List.range 4).foldl (fun acc i => acc + (b.get! (at_ + i)).toNat * Nat.pow 256 i) 0

def gzipHeader : ByteArray := ByteArray.mk #[0x1f, 0x8b, 8, 0, 0, 0, 0, 0, 0, 255]

/-- A gzip stream of the bytes, compressed at the default level. -/
def gzip (input : ByteArray) : ByteArray :=
  gzipHeader ++ deflate input ++ le32 (crc32 input) ++ le32 (input.size % 4294967296)

/-- The offset after a zero-terminated field starting at `at_`. -/
def skipText (b : ByteArray) (at_ : Nat) : Option Nat :=
  ((List.range (b.size - at_)).find? fun i => b.get! (at_ + i) == 0).map fun i => at_ + i + 1

/-- The bytes a gzip stream holds, or nothing when it is not a valid stream. -/
def gunzip (b : ByteArray) : Option ByteArray := do
  if b.size < 10 || b.get! 0 != 0x1f || b.get! 1 != 0x8b || b.get! 2 != 8 then none
  let flags := (b.get! 3).toNat
  let mut at_ := 10
  if flags / 4 % 2 == 1 then
    if at_ + 2 > b.size then none
    at_ := at_ + 2 + (b.get! at_).toNat + 256 * (b.get! (at_ + 1)).toNat
  if flags / 8 % 2 == 1 then at_ ← skipText b at_
  if flags / 16 % 2 == 1 then at_ ← skipText b at_
  if flags / 2 % 2 == 1 then at_ := at_ + 2
  if at_ > b.size then none
  let (out, after) ← inflate b at_
  if after + 8 > b.size then none
  if readLe32 b after != crc32 out || readLe32 b (after + 4) != out.size % 4294967296 then none
  pure out

end ComponentSync.Deflate
