/-!
Moments on the UTC time line and their calendar reading. A moment is a count of seconds since
1970-01-01T00:00:00Z with a fraction in nanoseconds; a fraction of a whole second or more stands
for a leap second, read as the 60th second of the minute.

Calendar dates follow the proleptic Gregorian calendar, with year 0 before year 1. Dates are
usable from the year -262143 to the year 262142.
-/
namespace ComponentSync.Time

/-- A moment: whole seconds since the Unix epoch and nanoseconds after them. `nanos` reaches a
second or more only for a leap second. -/
structure Instant where
  secs : Int
  nanos : Nat
  deriving DecidableEq, Repr, Inhabited

/-- Moments are ordered by their seconds, then by the fraction. -/
def Instant.before (a b : Instant) : Bool :=
  a.secs < b.secs || (a.secs == b.secs && a.nanos < b.nanos)

/-- The first and the last year that a date may have. -/
def minYear : Int := -262143
def maxYear : Int := 262142

def isLeapYear (y : Int) : Bool :=
  y % 4 == 0 && (y % 100 != 0 || y % 400 == 0)

/-- The number of days in a month of a year. -/
def daysInMonth (y : Int) (m : Nat) : Nat :=
  match m with
  | 2 => if isLeapYear y then 29 else 28
  | 4 | 6 | 9 | 11 => 30
  | _ => 31

/-- Days from 1970-01-01 to a calendar date (negative before it). -/
def daysFromCivil (y : Int) (m d : Nat) : Int :=
  let y := if m ≤ 2 then y - 1 else y
  let era := y / 400
  let yoe := y - era * 400
  let mp : Int := if m > 2 then m - 3 else m + 9
  let doy := (153 * mp + 2) / 5 + d - 1
  let doe := yoe * 365 + yoe / 4 - yoe / 100 + doy
  era * 146097 + doe - 719468

/-- The calendar date of a day counted from 1970-01-01: year, month and day. -/
def civilFromDays (z : Int) : Int × Nat × Nat :=
  let z := z + 719468
  let era := z / 146097
  let doe := z - era * 146097
  let yoe := (doe - doe / 1460 + doe / 36524 - doe / 146096) / 365
  let doy := doe - (365 * yoe + yoe / 4 - yoe / 100)
  let mp := (5 * doy + 2) / 153
  let d := doy - (153 * mp + 2) / 5 + 1
  let m := if mp < 10 then mp + 3 else mp - 9
  let y := yoe + era * 400 + (if m ≤ 2 then 1 else 0)
  (y, m.toNat, d.toNat)

/-- The calendar reading of a moment. `second` is 60 during a leap second, and `nanos` is then
the fraction within it. -/
structure Civil where
  year : Int
  month : Nat
  day : Nat
  hour : Nat
  minute : Nat
  second : Nat
  nanos : Nat
  deriving DecidableEq, Repr

def Instant.civil (t : Instant) : Civil :=
  let days := t.secs / 86400
  let sod := (t.secs % 86400).toNat
  let (y, m, d) := civilFromDays days
  let leap := t.nanos ≥ 1000000000
  { year := y, month := m, day := d, hour := sod / 3600, minute := sod % 3600 / 60
    second := sod % 60 + (if leap then 1 else 0)
    nanos := if leap then t.nanos - 1000000000 else t.nanos }

/-- Whether the calendar date of a moment lies in the usable range of years. -/
def Instant.inRange (t : Instant) : Bool :=
  let y := t.civil.year
  minYear ≤ y && y ≤ maxYear

/-- The moment at a calendar date and a time of day, with `nanos` possibly marking a leap
second. -/
def Instant.ofCivil (y : Int) (m d hour minute second nanos : Nat) : Instant :=
  { secs := daysFromCivil y m d * 86400 + (hour * 3600 + minute * 60 + second : Nat), nanos }

/-- The moment a given number of seconds after this one; the fraction is kept. -/
def Instant.addSeconds (t : Instant) (s : Int) : Instant :=
  { t with secs := t.secs + s }

/-- Whole seconds from `a` to `b`, rounded toward zero. -/
def Instant.secondsUntil (a b : Instant) : Int :=
  let total : Int := (b.secs - a.secs) * 1000000000 + ((b.nanos : Int) - a.nanos)
  total.tdiv 1000000000

/-- Decimal digits of `n`, at least `width` of them. -/
def padNat (width n : Nat) : String :=
  let s := toString n
  String.ofList (List.replicate (width - s.length) '0') ++ s

/-- A year as four digits, or with a sign and at least four digits outside 0 to 9999. -/
def renderYear (y : Int) : String :=
  if 0 ≤ y ∧ y ≤ 9999 then padNat 4 y.toNat
  else (if y < 0 then "-" else "+") ++ padNat 4 y.natAbs

/-- The fraction of a second: nothing when zero, else the fewest of 3, 6 or 9 digits that
write it exactly. -/
def renderFraction (nanos : Nat) : String :=
  if nanos == 0 then ""
  else if nanos % 1000000 == 0 then "." ++ padNat 3 (nanos / 1000000)
  else if nanos % 1000 == 0 then "." ++ padNat 6 (nanos / 1000)
  else "." ++ padNat 9 nanos

/-- RFC 3339 text of a moment in UTC. With `zulu` the zone is written `Z`, else `+00:00`. -/
def Instant.rfc3339 (t : Instant) (zulu : Bool) : String :=
  let c := t.civil
  renderYear c.year ++ "-" ++ padNat 2 c.month ++ "-" ++ padNat 2 c.day ++ "T" ++
    padNat 2 c.hour ++ ":" ++ padNat 2 c.minute ++ ":" ++ padNat 2 c.second ++
    renderFraction c.nanos ++ (if zulu then "Z" else "+00:00")

end ComponentSync.Time
