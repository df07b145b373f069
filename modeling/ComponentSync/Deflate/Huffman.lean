/-!
Huffman codes for deflate blocks. The code lengths come from the symbol counts in three steps:

* the used symbols are ordered by count, ties kept in symbol order;
* optimal lengths are computed in place over that order (Moffat and Katajainen's method), the
  most frequent symbols ending up last with the shortest codes;
* lengths over the limit are folded back: every code over the limit is cut to it, and while the
  lengths oversubscribe the code space one code of the longest length is dropped and the
  longest shorter length that has a code is split into two codes one bit longer.

The lengths are then handed out again along the same order, shortest to the most frequent, and
the codes are assigned canonically (RFC 1951, section 3.2.2). Codes are stored bit-reversed,
ready to be written least significant bit first.
-/
namespace ComponentSync.Deflate

def addWrapping (a b : Nat) : Nat := (a + b) % 65536

/-- The first phase of the in-place method: each internal node's weight, then its parent. -/
def mergeWeights (keys : Array Nat) : Array Nat := Id.run do
  let n := keys.size
  let mut a := keys.set! 0 (addWrapping (keys.getD 0 0) (keys.getD 1 0))
  let mut root := 0
  let mut leaf := 2
  for next in [1:n - 1] do
    if leaf ≥ n || a.getD root 0 < a.getD leaf 0 then
      a := (a.set! next (a.getD root 0)).set! root next
      root := root + 1
    else
      a := a.set! next (a.getD leaf 0)
      leaf := leaf + 1
    if leaf ≥ n || (root < next && a.getD root 0 < a.getD leaf 0) then
      a := (a.set! next (addWrapping (a.getD next 0) (a.getD root 0))).set! root next
      root := root + 1
    else
      a := a.set! next (addWrapping (a.getD next 0) (a.getD leaf 0))
      leaf := leaf + 1
  return a

/-- The second phase: the depth of each internal node, from its parent's. -/
def nodeDepths (a : Array Nat) : Array Nat := Id.run do
  let n := a.size
  let mut a := a.set! (n - 2) 0
  for k in [0:n - 2] do
    let i := n - 3 - k
    a := a.set! i (a.getD (a.getD i 0) 0 + 1)
  return a

/-- The third phase: the depth of each leaf, from the depths of the internal nodes. -/
def leafDepths (a : Array Nat) : Array Nat := Id.run do
  let n := a.size
  let mut a := a
  let mut avbl := 1
  let mut depth := 0
  -- `rootEnd` and `nextEnd` are one past the positions being read and written.
  let mut rootEnd := n - 1
  let mut nextEnd := n
  for _ in [0:n + 1] do
    if avbl == 0 then break
    let mut used := 0
    for _ in [0:n] do
      if rootEnd > 0 && a.getD (rootEnd - 1) 0 == depth then
        used := used + 1
        rootEnd := rootEnd - 1
      else break
    for _ in [0:avbl - used] do
      a := a.set! (nextEnd - 1) depth
      nextEnd := nextEnd - 1
    avbl := 2 * used
    depth := depth + 1
  return a

/-- Optimal code lengths for counts sorted in ascending order, position by position. -/
def minimumRedundancy (keys : Array Nat) : Array Nat :=
  if keys.size == 0 then keys
  else if keys.size == 1 then #[1]
  else leafDepths (nodeDepths (mergeWeights keys))

/-- The number of codes of each length, lengths over `limit` folded back so that the codes fit
in `limit` bits. -/
def limitLengths (lengths : List Nat) (limit : Nat) : Array Nat := Id.run do
  let top := (lengths.foldl max 0) + 1
  let mut num : Array Nat := Array.replicate (max top (limit + 1) + 1) 0
  for l in lengths do
    num := num.modify l (· + 1)
  if lengths.length ≤ 1 then return num
  let excess := (List.range num.size).foldl (fun s i => if i > limit then s + num.getD i 0 else s) 0
  num := (num.modify limit (· + excess)).mapIdx fun i x => if i > limit then 0 else x
  let total := (List.range (limit + 1)).foldl
    (fun s i => if i ≥ 1 then s + num.getD i 0 * Nat.pow 2 (limit - i) else s) 0
  for _ in [0:total - Nat.pow 2 limit] do
    num := num.modify limit (· - 1)
    for k in [0:limit - 1] do
      let i := limit - 1 - k
      if num.getD i 0 != 0 then
        num := (num.modify i (· - 1)).modify (i + 1) (· + 2)
        break
  return num

/-- The code length of every symbol from its count, at most `limit` bits; unused symbols get 0. -/
def codeLengths (counts : Array Nat) (limit : Nat) : Array Nat := Id.run do
  let used := ((List.range counts.size).filterMap fun i =>
    let c := counts.getD i 0
    if c == 0 then none else some (c, i)).mergeSort fun a b => a.1 ≤ b.1
  let depths := minimumRedundancy (used.map (·.1)).toArray
  let num := limitLengths depths.toList limit
  let order := used.toArray
  let mut sizes := Array.replicate counts.size 0
  let mut last := order.size
  for i in [1:limit + 1] do
    let first := last - num.getD i 0
    for j in [first:last] do
      sizes := sizes.set! (order.getD j (0, 0)).2 i
    last := first
  return sizes

/-- The low `len` bits of `code` in reverse order. -/
def reverseBits (code len : Nat) : Nat :=
  (List.range len).foldl (fun acc i => acc * 2 + (code / Nat.pow 2 i) % 2) 0

/-- The canonical codes of the given lengths, bit-reversed; unused symbols get 0. -/
def codeWords (lengths : Array Nat) (limit : Nat) : Array Nat := Id.run do
  let mut num := Array.replicate (limit + 2) 0
  for l in lengths do
    if l ≤ limit then num := num.modify l (· + 1)
  let mut next := Array.replicate (limit + 2) 0
  let mut j := 0
  for i in [2:limit + 1] do
    j := (j + num.getD (i - 1) 0) * 2
    next := next.set! i j
  let mut codes := Array.replicate lengths.size 0
  for s in [0:lengths.size] do
    let l := lengths.getD s 0
    if l != 0 then
      codes := codes.set! s (reverseBits (next.getD l 0) l)
      next := next.modify l (· + 1)
  return codes

end ComponentSync.Deflate
