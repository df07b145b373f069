/-!
The sliding window of the compressor and its match search.

The window is a ring of 32 KiB holding the bytes already seen and the bytes still ahead (the
lookahead, at most 258 of them); its first 257 bytes are repeated after its end so that a match
can be read past the wrap without masking. Every position with three bytes known is entered in
a hash chain: the hash of its three bytes selects a chain head, and each position links to the
position that held the head before it. Positions are kept modulo 65536, and position 0 doubles
as the end of a chain, so the very first position is never matched.

A search walks the chain of the current position, at most a fixed number of steps, and keeps
the longest match found, never longer than the lookahead nor farther than the bytes seen.
Candidates are first screened on the two bytes that would make them longer than the best so
far, then on their first two bytes.
-/
namespace ComponentSync.Deflate

def windowSize : Nat := 32768

def maxMatch : Nat := 258

def minMatch : Nat := 3

def hashSize : Nat := 32768

structure Window where
  /-- The ring of bytes, followed by a copy of its first 257 bytes. -/
  ring : ByteArray
  /-- The most recent position of each hash. -/
  heads : Array Nat
  /-- For each ring slot, the position entered in the same chain before it. -/
  links : Array Nat
  /-- The first position not yet coded. -/
  lookaheadPos : Nat
  /-- How many bytes from `lookaheadPos` on are in the window. -/
  lookaheadSize : Nat
  /-- How many bytes before `lookaheadPos` a match may reach back. -/
  seen : Nat

def Window.empty : Window :=
  ⟨ByteArray.mk (Array.replicate (windowSize + maxMatch) 0), Array.replicate hashSize 0,
    Array.replicate windowSize 0, 0, 0, 0⟩

/-- The byte at a ring index, or 0 past the end. -/
def byteAt (b : ByteArray) (i : Nat) : Nat :=
  if h : i < b.size then b[i].toNat else 0

/-- The two bytes at a ring index, the first as the low byte. -/
def Window.pairAt (w : Window) (i : Nat) : Nat :=
  byteAt w.ring i + 256 * byteAt w.ring (i + 1)

def slot (pos : Nat) : Nat := pos % windowSize

/-- Stores a byte in a ring slot and, for the first slots, in its copy past the end. -/
def Window.store (w : Window) (at_ : Nat) (c : UInt8) : Window :=
  let ring := w.ring.set! at_ c
  { w with ring := if at_ < maxMatch - 1 then ring.set! (windowSize + at_) c else ring }

/-- The hash that follows `h` when byte `c` comes next. -/
def rollHash (h c : Nat) : Nat := (h * 32 ^^^ c) % hashSize

/-- Enters a position in the chain of a hash. -/
def Window.enter (w : Window) (pos h : Nat) : Window :=
  { w with links := w.links.set! (slot pos) (w.heads.getD h 0),
           heads := w.heads.set! h (pos % 65536) }

/-- Moves up to `count` bytes of `input` from `src` into the lookahead, entering in the hash
chains every position whose three bytes are then known. -/
def Window.fill (w : Window) (input : ByteArray) (src count : Nat) : Window := Id.run do
  let mut w := w
  if w.lookaheadSize + w.seen ≥ minMatch - 1 && count > 0 then
    let start := w.lookaheadPos + w.lookaheadSize - 2
    let mut h := rollHash (byteAt w.ring (slot start)) (byteAt w.ring (slot (start + 1)))
    for k in [0:count] do
      let c := input.get! (src + k)
      let pos := start + k
      w := w.store (slot (pos + 2)) c
      h := rollHash h c.toNat
      w := w.enter pos h
    w := { w with lookaheadSize := w.lookaheadSize + count }
  else
    for k in [0:count] do
      let c := input.get! (src + k)
      w := w.store (slot (w.lookaheadPos + w.lookaheadSize)) c
      w := { w with lookaheadSize := w.lookaheadSize + 1 }
      if w.lookaheadSize + w.seen ≥ minMatch then
        let pos := w.lookaheadPos + w.lookaheadSize - 3
        let h := rollHash (rollHash (byteAt w.ring (slot pos)) (byteAt w.ring (slot (pos + 1))))
          c.toNat
        w := w.enter pos h
  return { w with seen := min (windowSize - w.lookaheadSize) w.seen }

/-- The best match so far and where the chain walk stands. -/
structure Search where
  probe : Nat
  dist : Nat
  len : Nat
  /-- The two bytes a candidate must have at the end of the best match to beat it. -/
  tail : Nat

inductive ChainStep
  /-- The chain ended, or went farther than allowed. -/
  | stop
  /-- No candidate yet; the walk stands at this slot. -/
  | onward (probe : Nat)
  /-- A candidate at this slot and distance. -/
  | candidate (probe dist : Nat)

/-- Up to three steps along the chain from a slot, stopping at a candidate whose bytes at the
end of the best match agree with it. -/
def Window.chainSteps (w : Window) (pos maxDist : Nat) (s : Search) : ChainStep :=
  go 3 s.probe
where
  go : Nat → Nat → ChainStep
    | 0, probe => .onward probe
    | k + 1, probe =>
      let nextPos := w.links.getD probe 0
      let dist := (pos + 65536 - nextPos % 65536) % 65536
      if nextPos == 0 || dist > maxDist then .stop
      else
        let probe := slot nextPos
        if w.pairAt (probe + s.len - 1) == s.tail then .candidate probe dist else go k probe

/-- The first offset from 2 up to the longest match at which two slots differ. -/
def Window.firstDifference (w : Window) (a b : Nat) : Option Nat :=
  (List.range (maxMatch - 2)).findSome? fun i =>
    if byteAt w.ring (a + 2 + i) != byteAt w.ring (b + 2 + i) then some (i + 2) else none

def Window.walk (w : Window) (pos at_ maxDist maxLen head : Nat) : Nat → Search → Nat × Nat
  | 0, s => (s.dist, s.len)
  | left + 1, s =>
    if left == 0 then (s.dist, s.len)
    else match w.chainSteps pos maxDist s with
      | .stop => (s.dist, s.len)
      | .onward probe => w.walk pos at_ maxDist maxLen head left { s with probe }
      | .candidate probe dist =>
        if dist == 0 then (s.dist, s.len)
        else if w.pairAt probe != head then w.walk pos at_ maxDist maxLen head left { s with probe }
        else match w.firstDifference at_ probe with
          | none => (dist, min maxLen maxMatch)
          | some found =>
            if found > s.len then
              let len := min maxLen found
              if len == maxLen then (dist, len)
              else w.walk pos at_ maxDist maxLen head left
                ⟨probe, dist, len, w.pairAt (at_ + len - 1)⟩
            else w.walk pos at_ maxDist maxLen head left { s with probe }

/-- The longest match for the lookahead that beats `len`, with its distance, or the given
match when none does; `probes` bounds the walk for short and for long best matches. -/
def Window.findMatch (w : Window) (probes : Nat × Nat) (dist len : Nat) : Nat × Nat :=
  let maxLen := min maxMatch w.lookaheadSize
  let len := max len 1
  let at_ := slot w.lookaheadPos
  let left := if len ≥ 32 then probes.2 else probes.1
  if maxLen ≤ len then (dist, len)
  else w.walk w.lookaheadPos at_ w.seen maxLen (w.pairAt at_) left
    ⟨at_, dist, len, w.pairAt (at_ + len - 1)⟩

end ComponentSync.Deflate
