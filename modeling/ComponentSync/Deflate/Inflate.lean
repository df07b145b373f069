import ComponentSync.Deflate.Symbols
/-!
Deflate decompression (RFC 1951): stored blocks, blocks with the fixed codes and blocks with
codes of their own, until the last block. Codes are decoded canonically one bit at a time: a
code of length `n` is read as a number, most significant bit first, and it names the symbol at
its offset from the first code of that length.

A stream that ends early, a stored block whose length check fails, a code that names no
symbol, a copy reaching before the start of the output, and a block of the reserved type are
all rejected.
-/
namespace ComponentSync.Deflate

/-- A position in a byte stream, counted in bits, least significant bit of a byte first. -/
structure BitReader where
  bytes : ByteArray
  bit : Nat

/-- Reads `n` bits as a number, the first bit lowest. -/
def BitReader.take (r : BitReader) (n : Nat) : Option (Nat × BitReader) :=
  if r.bit + n > 8 * r.bytes.size then none
  else
    let v := (List.range n).foldl (fun acc i =>
      let p := r.bit + i
      acc + ((r.bytes.get! (p / 8)).toNat / Nat.pow 2 (p % 8) % 2) * Nat.pow 2 i) 0
    some (v, ⟨r.bytes, r.bit + n⟩)

def BitReader.align (r : BitReader) : BitReader :=
  ⟨r.bytes, (r.bit + 7) / 8 * 8⟩

/-- A decoding table: how many codes each length has, and the symbols in code order. -/
structure Decoding where
  counts : Array Nat
  symbols : Array Nat

/-- The decoding table of a list of code lengths. -/
def Decoding.ofLengths (lengths : Array Nat) : Decoding :=
  let counts := lengths.foldl (fun c l => c.modify l (· + 1)) (Array.replicate 16 0)
  let symbols := (List.range 16).foldl (fun acc len =>
    if len == 0 then acc
    else acc ++ ((List.range lengths.size).filter fun s => lengths.getD s 0 == len).toArray) #[]
  ⟨counts.set! 0 0, symbols⟩

def Decoding.read (t : Decoding) (r : BitReader) : Option (Nat × BitReader) :=
  go 15 1 0 0 0 r
where
  go : Nat → Nat → Nat → Nat → Nat → BitReader → Option (Nat × BitReader)
    | 0, _, _, _, _, _ => none
    | fuel + 1, len, code, first, index, r => do
      let (b, r) ← r.take 1
      let code := code + b
      let count := t.counts.getD len 0
      if code < first + count then some (t.symbols.getD (index + (code - first)) 0, r)
      else go fuel (len + 1) (code * 2) ((first + count) * 2) (index + count) r

def fixedLengths : Array Nat :=
  Array.replicate 144 8 ++ Array.replicate 112 9 ++ Array.replicate 24 7 ++ Array.replicate 8 8

/-- Reads the symbols of a block until its end, appending the bytes to `out`. -/
def inflateSymbols (lit dist : Decoding) : Nat → BitReader → ByteArray →
    Option (BitReader × ByteArray)
  | 0, _, _ => none
  | fuel + 1, r, out => do
    let (s, r) ← lit.read r
    if s < 256 then inflateSymbols lit dist fuel r (out.push (UInt8.ofNat s))
    else if s == 256 then some (r, out)
    else
      let li := s - 257
      if li ≥ 29 then none
      else
        let (extra, r) ← r.take (lengthExtra.getD li 0)
        let len := lengthBase.getD li 0 + extra
        let (ds, r) ← dist.read r
        if ds ≥ 30 then none
        else
          let (dextra, r) ← r.take (distanceExtra.getD ds 0)
          let d := distanceBase.getD ds 0 + dextra
          if d > out.size then none
          else
            let out := (List.range len).foldl (fun o _ => o.push (o.get! (o.size - d))) out
            inflateSymbols lit dist fuel r out

/-- Reads the code lengths of a block with codes of its own. -/
def readLengths (t : Decoding) (total : Nat) : Nat → BitReader → Array Nat →
    Option (BitReader × Array Nat)
  | 0, _, _ => none
  | fuel + 1, r, acc =>
    if acc.size ≥ total then if acc.size == total then some (r, acc) else none
    else do
      let (s, r) ← t.read r
      if s < 16 then readLengths t total fuel r (acc.push s)
      else if s == 16 then
        if acc.isEmpty then none
        else
          let (n, r) ← r.take 2
          readLengths t total fuel r (acc ++ Array.replicate (3 + n) (acc.getD (acc.size - 1) 0))
      else if s == 17 then
        let (n, r) ← r.take 3
        readLengths t total fuel r (acc ++ Array.replicate (3 + n) 0)
      else
        let (n, r) ← r.take 7
        readLengths t total fuel r (acc ++ Array.replicate (11 + n) 0)

/-- The order in which code-length code lengths are stored. -/
def storedLengthOrder : List Nat := [16, 17, 18, 0, 8, 7, 9, 6, 10, 5, 11, 4, 12, 3, 13, 2, 14, 1, 15]

/-- Reads the tables of a block with codes of its own. -/
def readTables (r : BitReader) : Option (Decoding × Decoding × BitReader) := do
  let (hlit, r) ← r.take 5
  let (hdist, r) ← r.take 5
  let (hclen, r) ← r.take 4
  let (pairs, r) ← (storedLengthOrder.take (hclen + 4)).foldlM (fun (acc, r) s => do
    let (l, r) ← r.take 3
    pure (acc ++ [(s, l)], r)) ([], r)
  let clens := pairs.foldl (fun a (s, l) => a.set! s l) (Array.replicate 19 0)
  let numLit := hlit + 257
  let numDist := hdist + 1
  let (r, lens) ← readLengths (Decoding.ofLengths clens) (numLit + numDist) (numLit + numDist + 1) r #[]
  pure (Decoding.ofLengths (lens.extract 0 numLit), Decoding.ofLengths (lens.extract numLit lens.size), r)

def inflateBlocks : Nat → BitReader → ByteArray → Option (BitReader × ByteArray)
  | 0, _, _ => none
  | fuel + 1, r, out => do
    let (last, r) ← r.take 1
    let (kind, r) ← r.take 2
    let (r, out) ← match kind with
      | 0 =>
        let r := r.align
        let start := r.bit / 8
        if start + 4 > r.bytes.size then none
        else
          let byte (i : Nat) := (r.bytes.get! (start + i)).toNat
          let len := byte 0 + 256 * byte 1
          let nlen := byte 2 + 256 * byte 3
          if len + nlen != 65535 || start + 4 + len > r.bytes.size then none
          else some (⟨r.bytes, (start + 4 + len) * 8⟩, out ++ r.bytes.extract (start + 4) (start + 4 + len))
      | 1 =>
        inflateSymbols (Decoding.ofLengths fixedLengths) (Decoding.ofLengths (Array.replicate 30 5))
          (8 * r.bytes.size + 1) r out
      | 2 => do
        let (lit, dist, r) ← readTables r
        inflateSymbols lit dist (8 * r.bytes.size + 1) r out
      | _ => none
    if last == 1 then some (r, out) else inflateBlocks fuel r out

/-- The bytes of a raw deflate stream starting at byte `start`, and the byte after its end. -/
def inflate (bytes : ByteArray) (start : Nat) : Option (ByteArray × Nat) := do
  let (r, out) ← inflateBlocks (8 * bytes.size + 1) ⟨bytes, 8 * start⟩ ByteArray.empty
  pure (out, (r.bit + 7) / 8)

end ComponentSync.Deflate
