/-!
The symbols of a deflate block (RFC 1951, section 3.2.5). A copy length from 3 to 258 is sent as
one of the symbols 257 to 285 followed by extra bits, and a distance from 1 to 32768 as one of
the distance symbols 0 to 29 followed by extra bits. The extra bits hold the offset from the
symbol's base.

Length 258 has a symbol of its own, 285, with no extra bits, although symbol 284 with its five
extra bits would reach it too.
-/
namespace ComponentSync.Deflate

/-- The shortest length of each length symbol, from 257 on. -/
def lengthBase : Array Nat :=
  #[3, 4, 5, 6, 7, 8, 9, 10, 11, 13, 15, 17, 19, 23, 27, 31, 35, 43, 51, 59, 67, 83, 99, 115,
    131, 163, 195, 227, 258]

/-- The number of extra bits of each length symbol, from 257 on. -/
def lengthExtra : Array Nat :=
  #[0, 0, 0, 0, 0, 0, 0, 0, 1, 1, 1, 1, 2, 2, 2, 2, 3, 3, 3, 3, 4, 4, 4, 4, 5, 5, 5, 5, 0]

def distanceBase : Array Nat :=
  #[1, 2, 3, 4, 5, 7, 9, 13, 17, 25, 33, 49, 65, 97, 129, 193, 257, 385, 513, 769, 1025, 1537,
    2049, 3073, 4097, 6145, 8193, 12289, 16385, 24577]

/-- The number of extra bits of each distance symbol. -/
def distanceExtra : Array Nat :=
  #[0, 0, 0, 0, 1, 1, 2, 2, 3, 3, 4, 4, 5, 5, 6, 6, 7, 7, 8, 8, 9, 9, 10, 10, 11, 11, 12, 12,
    13, 13]

/-- The index of the last base not above `n`, searching the first `count` bases. -/
def lastBaseAtMost (bases : Array Nat) (count n : Nat) : Nat :=
  (List.range count).foldl (fun best i => if bases.getD i 0 ≤ n then i else best) 0

/-- The length symbol's index (0 for symbol 257) of a copy length. -/
def lengthIndex (len : Nat) : Nat :=
  if len ≥ 258 then 28 else lastBaseAtMost lengthBase 28 len

def distanceIndex (dist : Nat) : Nat :=
  lastBaseAtMost distanceBase 30 dist

end ComponentSync.Deflate
