import ComponentSync.Time.Instant
/-!
Spans of time as whole seconds and nanoseconds, and their short text: the largest unit among
seconds, milliseconds, microseconds and nanoseconds in which the span is at least one, with the
rest as a decimal fraction without trailing zeros (`240s`, `1.5s`, `250ms`, `0ns`).
-/
namespace ComponentSync.Time

structure Duration where
  secs : Nat
  nanos : Nat
  deriving DecidableEq, Repr, Inhabited

def Duration.ofSecs (s : Nat) : Duration := ⟨s, 0⟩

def Duration.ofMillis (ms : Nat) : Duration := ⟨ms / 1000, ms % 1000 * 1000000⟩

/-- A whole number and a fraction `frac / scale`, the fraction's trailing zeros dropped. -/
def decimalText (whole frac scale : Nat) : String :=
  if frac == 0 then toString whole
  else
    let digits := ((toString (scale + frac)).toList.drop 1).reverse.dropWhile (· == '0')
    let digits := String.ofList digits.reverse
    toString whole ++ "." ++ digits

def Duration.render (d : Duration) : String :=
  if d.secs > 0 then decimalText d.secs d.nanos 1000000000 ++ "s"
  else if d.nanos ≥ 1000000 then decimalText (d.nanos / 1000000) (d.nanos % 1000000) 1000000 ++ "ms"
  else if d.nanos ≥ 1000 then decimalText (d.nanos / 1000) (d.nanos % 1000) 1000 ++ "µs"
  else toString d.nanos ++ "ns"

end ComponentSync.Time
