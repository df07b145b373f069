/-!
Binary64 floating-point numbers as data: reading a decimal by scaling with powers of ten, and
writing a number with the fewest significant digits that read back to it.

The digits of a finite number `v` are the shortest decimal `d × 10^q` inside the interval of
reals that round to `v` (its ends belong to it when the significand of `v` is even); among the
shortest, the one nearest to `v`, and of two equally near the even one.
-/
namespace ComponentSync.Number

/-- A finite, positive binary64 value as an exact fraction: `num / 2 ^ shift`, with the two
half-gaps to its neighbours in the same units, and whether the ends of the rounding interval
belong to it. -/
structure Exact where
  num : Nat
  shift : Nat
  lowGap : Nat
  highGap : Nat
  closed : Bool
  deriving Repr

/-- The significand and binary exponent of a finite nonzero value: `v = m × 2 ^ e`. -/
def decompose (bits : UInt64) : Nat × Int × Bool :=
  let frac := (bits &&& 0xFFFFFFFFFFFFF).toNat
  let expField := ((bits >>> 52) &&& 0x7FF).toNat
  if expField == 0 then (frac, -1074, false)
  else (frac + Nat.pow 2 52, (expField : Int) - 1075, frac == 0 && expField > 1)

/-- The exact fraction and rounding interval of a finite, nonzero value given by its bits. -/
def Exact.ofBits (bits : UInt64) : Exact :=
  let (m, e, lopsided) := decompose bits
  -- scale by 2 ^ (2 - e) when e < 2 so that the quarter-unit gaps are whole numbers
  let k : Nat := if e < 2 then (2 - e).toNat else 0
  let unit : Nat := if e < 2 then 1 else Nat.pow 2 (e - 2).toNat
  { num := 4 * m * unit, shift := k, lowGap := (if lopsided then 1 else 2) * unit
    highGap := 2 * unit, closed := m % 2 == 0 }

/-- The number of decimal digits of a positive number. -/
def digitCount (n : Nat) : Nat :=
  (toString n).length

/-- `⌊log₁₀ (num / 2 ^ shift)⌋` for a positive fraction. -/
def floorLog10 (num shift : Nat) : Int :=
  let whole := num / Nat.pow 2 shift
  if whole > 0 then (digitCount whole : Int) - 1
  else
    -- the fraction is below one: count the places until it reaches one
    let rec below (j : Nat) (fuel : Nat) : Int :=
      match fuel with
      | 0 => -(j : Int)
      | fuel + 1 => if num * Nat.pow 10 j ≥ Nat.pow 2 shift then -(j : Int) else below (j + 1) fuel
    below 1 400

/-- The shortest decimal `(d, q)` with `d × 10 ^ q` in the rounding interval of the value;
among the shortest the nearest, and of two equally near the one with an even `d`. -/
def Exact.shortest (x : Exact) : Nat × Int :=
  let top := floorLog10 x.num x.shift
  let rec search (n : Nat) (fuel : Nat) : Nat × Int :=
    match fuel with
    | 0 => (0, 0)
    | fuel + 1 =>
      let q : Int := top - n + 1
      -- scale both the value and the grid step so they are whole numbers
      let (value, lo, hi, step) :=
        if q ≥ 0 then (x.num, x.num - x.lowGap, x.num + x.highGap, Nat.pow 10 q.toNat * Nat.pow 2 x.shift)
        else
          let f := Nat.pow 10 (-q).toNat
          (x.num * f, (x.num - x.lowGap) * f, (x.num + x.highGap) * f, Nat.pow 2 x.shift)
      let inside (c : Nat) : Bool :=
        if x.closed then lo ≤ c * step && c * step ≤ hi else lo < c * step && c * step < hi
      let down := value / step
      let up := down + 1
      let pick : Option Nat :=
        match inside down, inside up with
        | true, true =>
          let dDown := value - down * step
          let dUp := up * step - value
          if dDown < dUp then some down
          else if dUp < dDown then some up
          else if down % 2 == 0 then some down else some up
        | true, false => some down
        | false, true => some up
        | false, false => none
      match pick with
      | some d =>
        -- a carry into a new digit leaves trailing zeros: move them into the exponent
        let rec strip (d : Nat) (q : Int) (fuel : Nat) : Nat × Int :=
          match fuel with
          | 0 => (d, q)
          | fuel + 1 => if d > 0 && d % 10 == 0 then strip (d / 10) (q + 1) fuel else (d, q)
        strip d q 20
      | none => search (n + 1) fuel
  search 1 17

/-- The value of `n` as a binary64 number, rounded to nearest with ties to even. -/
def ofNatRounded (n : Nat) : Float :=
  if n == 0 then 0.0
  else
    let len := Nat.log2 n + 1
    if len ≤ 53 then Float.ofBits (((len - 1 + 1023).toUInt64 <<< 52) |||
        (n * Nat.pow 2 (53 - len) - Nat.pow 2 52).toUInt64)
    else
      let drop := len - 53
      let q := n / Nat.pow 2 drop
      let r := n % Nat.pow 2 drop
      let half := Nat.pow 2 (drop - 1)
      let q := if r > half || (r == half && q % 2 == 1) then q + 1 else q
      let (q, drop) := if q == Nat.pow 2 53 then (q / 2, drop + 1) else (q, drop)
      let biased := drop + 52 + 1023
      if biased ≥ 2047 then Float.ofBits 0x7FF0000000000000
      else Float.ofBits ((biased.toUInt64 <<< 52) ||| (q - Nat.pow 2 52).toUInt64)

def pow10 (k : Nat) : Float :=
  ofNatRounded (Nat.pow 10 k)

/-- Reads `significand × 10 ^ exponent` as a binary64 number the way a scaling reader does:
the significand is rounded once, then multiplied or divided by one power of ten (by `10^308`
repeatedly while the exponent is below -308). `none` when the result overflows. -/
def scaleByPow10 (significand : Nat) (exponent : Int) : Option Float :=
  let f := ofNatRounded significand
  let rec go (f : Float) (exponent : Int) (fuel : Nat) : Option Float :=
    match fuel with
    | 0 => some f
    | fuel + 1 =>
      if exponent.natAbs ≤ 308 then
        if exponent ≥ 0 then
          let g := f * pow10 exponent.toNat
          if g.isInf then none else some g
        else some (f / pow10 exponent.natAbs)
      else if f == 0.0 then some f
      else if exponent ≥ 0 then none
      else go (f / pow10 308) (exponent + 308) fuel
  go f exponent 64

/-- Whether the sign bit of a number is set. -/
def isNegative (f : Float) : Bool :=
  f.toBits >>> 63 == 1

/-- Significant digits and the decimal exponent of their last digit, for a finite nonzero
number. -/
def digitsOf (f : Float) : String × Int :=
  let (d, q) := (Exact.ofBits (f.toBits &&& 0x7FFFFFFFFFFFFFFF)).shortest
  (toString d, q)

/-- Writing in which large and small magnitudes switch to an exponent: positional while the
decimal point falls within the first sixteen places and the number is at least `10^-5`,
with `.0` after a whole number; otherwise one digit, a point when more follow, and `e`, the
sign of the exponent when it is negative or `plusSign` asks for it, and the exponent. -/
def renderCompact (plusSign : Bool) (f : Float) : String :=
  let sign := if isNegative f then "-" else ""
  if (f.toBits &&& 0x7FFFFFFFFFFFFFFF) == 0 then sign ++ "0.0"
  else
    let (ds, q) := digitsOf f
    let len : Int := ds.length
    let kk := len + q
    let exp (e : Int) : String :=
      if e < 0 then "-" ++ toString e.natAbs else (if plusSign then "+" else "") ++ toString e
    if 0 ≤ q ∧ kk ≤ 16 then sign ++ ds ++ String.ofList (List.replicate q.toNat '0') ++ ".0"
    else if 0 < kk ∧ kk ≤ 16 then
      sign ++ String.ofList (ds.toList.take kk.toNat) ++ "." ++
        String.ofList (ds.toList.drop kk.toNat)
    else if -5 < kk ∧ kk ≤ 0 then
      sign ++ "0." ++ String.ofList (List.replicate (-kk).toNat '0') ++ ds
    else if ds.length == 1 then sign ++ ds ++ "e" ++ exp (kk - 1)
    else
      sign ++ String.ofList (ds.toList.take 1) ++ "." ++ String.ofList (ds.toList.drop 1) ++
        "e" ++ exp (kk - 1)

/-- Positional writing with the shortest digits, never an exponent, and `.0` after a whole
number; `NaN`, `inf` and `-inf` for the others. -/
def renderPositional (f : Float) : String :=
  if f.isNaN then "NaN"
  else if f.isInf then (if isNegative f then "-inf" else "inf")
  else
    let sign := if isNegative f then "-" else ""
    if (f.toBits &&& 0x7FFFFFFFFFFFFFFF) == 0 then sign ++ "0.0"
    else
      let (ds, q) := digitsOf f
      let len : Int := ds.length
      if q ≥ 0 then sign ++ ds ++ String.ofList (List.replicate q.toNat '0') ++ ".0"
      else if len + q > 0 then
        let k := (len + q).toNat
        sign ++ String.ofList (ds.toList.take k) ++ "." ++ String.ofList (ds.toList.drop k)
      else sign ++ "0." ++ String.ofList (List.replicate (-(len + q)).toNat '0') ++ ds

end ComponentSync.Number
