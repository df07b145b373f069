import ComponentSync.Deflate.Symbols
import ComponentSync.Deflate.Huffman
import ComponentSync.Deflate.Window
/-!
Deflate compression at the default level (RFC 1951). The input is parsed left to right with
lazy matching: a match shorter than 128 bytes is held back for one byte, and dropped for a
literal when the next position has a longer one. A match of exactly three bytes at a distance
of 8 KiB or more is not worth coding and is dropped.

The parsed symbols are gathered into blocks. A block is closed when its symbol buffer (64 KiB,
one byte a literal, three bytes a match, and one flag byte per eight symbols) is nearly full,
or when it covers more than 31 KiB and its buffer has grown past nine tenths of the bytes it
covers; the last block is closed at the end of the input. A closed block covering fewer than
48 bytes is written with the fixed codes, any other with codes built for it. When the coded
block takes about as many bytes as it covers, and those bytes are still in the window, they are
stored instead.
-/
/-!
Writing a bit stream into bytes, least significant bit first, as deflate streams are laid out:
a value of `n` bits goes out low bit first, and a byte is complete once eight bits are in.
-/
namespace ComponentSync.Deflate

/-- Bytes written so far, and the bits of the byte not yet complete. -/
structure BitWriter where
  bytes : ByteArray
  pending : Nat
  count : Nat

def BitWriter.empty : BitWriter := ⟨ByteArray.empty, 0, 0⟩

/-- Moves every complete byte of the pending bits into the output. -/
def BitWriter.settle (w : BitWriter) : BitWriter :=
  go (w.count / 8) w
where
  go : Nat → BitWriter → BitWriter
    | 0, w => w
    | n + 1, w => go n ⟨w.bytes.push (UInt8.ofNat (w.pending % 256)), w.pending / 256, w.count - 8⟩

def BitWriter.put (w : BitWriter) (value len : Nat) : BitWriter :=
  BitWriter.settle ⟨w.bytes, w.pending + (value % Nat.pow 2 len) * Nat.pow 2 w.count, w.count + len⟩

def BitWriter.pad (w : BitWriter) : BitWriter :=
  if w.count % 8 == 0 then w else w.put 0 (8 - w.count % 8)

def BitWriter.position (w : BitWriter) : Nat := w.bytes.size

end ComponentSync.Deflate

namespace ComponentSync.Deflate

/-- One parsed symbol: a literal byte, or a copy of `len` bytes from `dist` back. -/
inductive Token
  | literal (b : Nat)
  | copy (len dist : Nat)

/-- Hash chain steps allowed at the default level: for a best match shorter than 32 bytes, and
for a longer one. -/
def defaultProbes : Nat × Nat := (44, 12)

/-- The size of the symbol buffer of a block. -/
def symbolBufferSize : Nat := 65536

structure Deflater where
  window : Window
  /-- The symbols of the open block. -/
  tokens : Array Token
  litCounts : Array Nat
  distCounts : Array Nat
  /-- Bytes the open block's symbols take in the symbol buffer. -/
  bufferUsed : Nat
  /-- Symbols that still fit under the current flag byte. -/
  flagsLeft : Nat
  /-- Input bytes the open block covers. -/
  covered : Nat
  /-- The input position where the open block starts. -/
  blockStart : Nat
  /-- A match held back by lazy matching: the literal at its position, its distance, length. -/
  held : Option (Nat × Nat × Nat)
  out : BitWriter

def Deflater.fresh : Deflater :=
  ⟨Window.empty, #[], Array.replicate 288 0, Array.replicate 32 0, 1, 8, 0, 0, none,
    BitWriter.empty⟩

def Deflater.useFlag (d : Deflater) : Deflater :=
  if d.flagsLeft == 1 then { d with flagsLeft := 8, bufferUsed := d.bufferUsed + 1 }
  else { d with flagsLeft := d.flagsLeft - 1 }

def Deflater.literal (d : Deflater) (b : Nat) : Deflater :=
  Deflater.useFlag { d with
    tokens := d.tokens.push (.literal b)
    litCounts := d.litCounts.modify b (· + 1)
    covered := d.covered + 1
    bufferUsed := d.bufferUsed + 1 }

def Deflater.copy (d : Deflater) (len dist : Nat) : Deflater :=
  Deflater.useFlag { d with
    tokens := d.tokens.push (.copy len dist)
    litCounts := d.litCounts.modify (257 + lengthIndex len) (· + 1)
    distCounts := d.distCounts.modify (distanceIndex dist) (· + 1)
    covered := d.covered + len
    bufferUsed := d.bufferUsed + 3 }

/-- The order in which the lengths of the code-length code are sent. -/
def codeLengthOrder : List Nat := [16, 17, 18, 0, 8, 7, 9, 6, 10, 5, 11, 4, 12, 3, 13, 2, 14, 1, 15]

/-- Run-length coding of code lengths, as symbols of the code-length code with their extra
values: runs of zeros go as 17 or 18 (or singly when shorter than three), repeats of the
previous length as 16, at most six at a time. -/
structure LengthRuns where
  symbols : Array Nat
  counts : Array Nat
  zeros : Nat
  repeats : Nat
  previous : Nat

def LengthRuns.flushRepeats (r : LengthRuns) : LengthRuns :=
  if r.repeats == 0 then r
  else if r.repeats < 3 then
    { r with
      symbols := r.symbols ++ Array.replicate r.repeats r.previous
      counts := r.counts.modify r.previous (· + r.repeats)
      repeats := 0 }
  else
    { r with
      symbols := r.symbols ++ #[16, r.repeats - 3]
      counts := r.counts.modify 16 (· + 1)
      repeats := 0 }

def LengthRuns.flushZeros (r : LengthRuns) : LengthRuns :=
  if r.zeros == 0 then r
  else if r.zeros < 3 then
    { r with
      symbols := r.symbols ++ Array.replicate r.zeros 0
      counts := r.counts.modify 0 (· + r.zeros)
      zeros := 0 }
  else if r.zeros ≤ 10 then
    { r with
      symbols := r.symbols ++ #[17, r.zeros - 3]
      counts := r.counts.modify 17 (· + 1)
      zeros := 0 }
  else
    { r with
      symbols := r.symbols ++ #[18, r.zeros - 11]
      counts := r.counts.modify 18 (· + 1)
      zeros := 0 }

def LengthRuns.add (r : LengthRuns) (size : Nat) : LengthRuns :=
  let r := if size == 0 then
      let r := r.flushRepeats
      let r := { r with zeros := r.zeros + 1 }
      if r.zeros == 138 then r.flushZeros else r
    else
      let r := r.flushZeros
      if size != r.previous then
        let r := r.flushRepeats
        { r with symbols := r.symbols.push size, counts := r.counts.modify size (· + 1) }
      else
        let r := { r with repeats := r.repeats + 1 }
        if r.repeats == 6 then r.flushRepeats else r
  { r with previous := size }

/-- The run-length coding of a list of code lengths. -/
def LengthRuns.ofSizes (sizes : List Nat) : LengthRuns :=
  let r := sizes.foldl LengthRuns.add ⟨#[], Array.replicate 19 0, 0, 0, 255⟩
  if r.repeats != 0 then r.flushRepeats else r.flushZeros

/-- The number of leading entries kept when trailing zeros are cut, but no fewer than `least`. -/
def keptPrefix (sizes : Array Nat) (least upto : Nat) : Nat :=
  (List.range upto).foldl (fun n i => if sizes.getD i 0 != 0 && i + 1 > n then i + 1 else n) least

/-- Writes the header of a block with its own codes: the code lengths of both codes, run-length
coded, under a code of their own. -/
def writeCodeTables (w : BitWriter) (litSizes distSizes : Array Nat) : BitWriter := Id.run do
  let numLit := keptPrefix litSizes 257 286
  let numDist := keptPrefix distSizes 1 30
  let runs := LengthRuns.ofSizes ((litSizes.extract 0 numLit).toList ++
    (distSizes.extract 0 numDist).toList)
  let sizes := codeLengths runs.counts 7
  let codes := codeWords sizes 7
  let ordered := codeLengthOrder.map fun s => sizes.getD s 0
  let used := max 4 (keptPrefix ordered.toArray 0 19)
  let mut w := (((w.put 2 2).put (numLit - 257) 5).put (numDist - 1) 5).put (used - 4) 4
  for s in ordered.take used do
    w := w.put s 3
  let mut i := 0
  for _ in [0:runs.symbols.size] do
    if i ≥ runs.symbols.size then break
    let code := runs.symbols.getD i 0
    w := w.put (codes.getD code 0) (sizes.getD code 0)
    i := i + 1
    if code ≥ 16 then
      w := w.put (runs.symbols.getD i 0) ([2, 3, 7].getD (code - 16) 0)
      i := i + 1
  return w

def fixedLitSizes : Array Nat :=
  Array.replicate 144 8 ++ Array.replicate 112 9 ++ Array.replicate 24 7 ++ Array.replicate 8 8

/-- Writes the symbols of a block and its end, with the given codes. -/
def writeTokens (w : BitWriter) (tokens : Array Token) (litSizes litCodes distSizes distCodes :
    Array Nat) : BitWriter :=
  let w := tokens.foldl (fun w t =>
    match t with
    | .literal b => w.put (litCodes.getD b 0) (litSizes.getD b 0)
    | .copy len dist =>
      let li := lengthIndex len
      let di := distanceIndex dist
      let w := w.put (litCodes.getD (257 + li) 0) (litSizes.getD (257 + li) 0)
      let w := w.put (len - 3) (lengthExtra.getD li 0)
      let w := w.put (distCodes.getD di 0) (distSizes.getD di 0)
      w.put (dist - 1) (distanceExtra.getD di 0)) w
  w.put (litCodes.getD 256 0) (litSizes.getD 256 0)

/-- Closes the open block, the last one when `final`. -/
def Deflater.closeBlock (d : Deflater) (final : Bool) : Deflater :=
  let start := d.out.put (if final then 1 else 0) 1
  let coded :=
    if d.covered < 48 then
      let dist := Array.replicate 32 5
      writeTokens (start.put 1 2) d.tokens fixedLitSizes (codeWords fixedLitSizes 15) dist
        (codeWords dist 15)
    else
      let litSizes := codeLengths (d.litCounts.set! 256 1) 15
      let distSizes := codeLengths d.distCounts 15
      writeTokens (writeCodeTables start litSizes distSizes) d.tokens litSizes
        (codeWords litSizes 15) distSizes (codeWords distSizes 15)
  let expanded := d.covered > 32 && coded.position - start.position + 1 ≥ d.covered &&
    d.window.lookaheadPos - d.blockStart ≤ d.window.seen
  let written :=
    if expanded then
      let w := ((start.put 0 2).pad.put (d.covered % 65536) 16).put
        ((65535 - d.covered % 65536)) 16
      (List.range d.covered).foldl (fun w i =>
        w.put (byteAt d.window.ring (slot (d.blockStart + i))) 8) w
    else coded
  { d with
    out := if final then written.pad else written
    tokens := #[]
    litCounts := Array.replicate 288 0
    distCounts := Array.replicate 32 0
    bufferUsed := 1
    flagsLeft := 8
    blockStart := d.blockStart + d.covered
    covered := 0 }

/-- Codes the position at the start of the lookahead, with the held match if there is one,
and moves past what was coded. -/
def Deflater.step (d : Deflater) : Deflater :=
  let w := d.window
  let at_ := slot w.lookaheadPos
  let heldLen := match d.held with | some (_, _, l) => l | none => 0
  let (dist, len) := w.findMatch defaultProbes 0 (if heldLen != 0 then heldLen else minMatch - 1)
  let (dist, len) :=
    if (len == minMatch && dist ≥ 8192) || at_ == dist then (0, 0) else (dist, len)
  let here := byteAt w.ring at_
  let (d, advance) := match d.held with
    | some (lit, heldDist, heldLen) =>
      if len > heldLen then
        let d := d.literal lit
        if len ≥ 128 then ({ d.copy len dist with held := none }, len)
        else ({ d with held := some (here, dist, len) }, 1)
      else ({ d.copy heldLen heldDist with held := none }, heldLen - 1)
    | none =>
      if dist == 0 then (d.literal here, 1)
      else if len ≥ 128 then (d.copy len dist, len)
      else ({ d with held := some (here, dist, len) }, 1)
  let w := { w with
    lookaheadPos := w.lookaheadPos + advance
    lookaheadSize := w.lookaheadSize - advance
    seen := min (w.seen + advance) windowSize }
  let d := { d with window := w }
  let tight := d.bufferUsed > symbolBufferSize - 8
  let fat := d.covered > 31 * 1024 && (d.bufferUsed * 115) / 128 ≥ d.covered
  if tight || fat then d.closeBlock false else d

/-- Compresses the input from `src` on, with `fuel` steps at most. -/
def Deflater.run (input : ByteArray) : Nat → Deflater → Nat → Deflater
  | 0, d, _ => d
  | fuel + 1, d, src =>
    if src ≥ input.size && d.window.lookaheadSize == 0 then d
    else
      let count := min (input.size - src) (maxMatch - d.window.lookaheadSize)
      let d := { d with window := d.window.fill input src count }
      Deflater.run input fuel d.step (src + count)

def deflate (input : ByteArray) : ByteArray :=
  ((Deflater.run input (input.size + 2) Deflater.fresh 0).closeBlock true).out.bytes

end ComponentSync.Deflate
