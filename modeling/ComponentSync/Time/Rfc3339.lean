import ComponentSync.Time.Instant
import ComponentSync.Text.Blank
/-!
Reading RFC 3339 date-times, in a relaxed form: blanks may stand before each number and around
the separators, the date and time may be joined by `T`, `t` or a blank, the fraction may have
any number of digits (only nine count), and the zone is `Z`, `z`, `UTC` in any case, or an
offset `±hh:mm` (the colon may be missing or replaced by blanks, and `−` may stand for `-`).

A year without a sign has at most four digits. The text is checked in order and the first fault
wins; the calendar and the range of the moment are checked last. A local date and time that is
valid but falls outside the range once its offset is taken away matches no moment.
-/
namespace ComponentSync.Time

inductive TimeFault
  | outOfRange
  | impossible
  | invalid
  | tooShort
  | tooLong
  deriving DecidableEq, Repr

def TimeFault.text : TimeFault → String
  | .outOfRange => "input is out of range"
  | .impossible => "no possible date and time matching input"
  | .invalid => "input contains invalid characters"
  | .tooShort => "premature end of input"
  | .tooLong => "trailing input"

abbrev Scan (α : Type) := List Char → Except TimeFault (α × List Char)

def digitValue (c : Char) : Option Nat :=
  if '0' ≤ c ∧ c ≤ '9' then some (c.toNat - '0'.toNat) else none

def i64Max : Nat := 9223372036854775807

/-- Reads between `min` and `max` digits (`min` is 1 here). -/
def readDigits (max : Nat) (cs : List Char) : Except TimeFault (Nat × List Char) :=
  match cs with
  | [] => .error .tooShort
  | c :: _ =>
    if (digitValue c).isNone then .error .invalid
    else
      let ds := (cs.takeWhile fun c => (digitValue c).isSome).take max
      let n := ds.foldl (fun n c => n * 10 + (digitValue c).getD 0) 0
      if n > i64Max then .error .outOfRange else .ok (n, cs.drop ds.length)

def skipBlanks (cs : List Char) : List Char :=
  cs.dropWhile Text.isBlank

def literal (c : Char) (cs : List Char) : Except TimeFault (List Char) :=
  match cs with
  | [] => .error .tooShort
  | d :: rest => if d == c then .ok rest else .error .invalid

/-- Reads a number after optional blanks and checks that it lies in `lo..hi`. -/
def field (width lo hi : Nat) (cs : List Char) : Except TimeFault (Nat × List Char) := do
  let (n, rest) ← readDigits width (skipBlanks cs)
  if n < lo ∨ n > hi then throw .outOfRange
  return (n, rest)

/-- Reads a year: with a sign any number of digits, without one at most four. -/
def yearField (cs : List Char) : Except TimeFault (Int × List Char) := do
  let cs := skipBlanks cs
  let (y, rest) ← match cs with
    | '-' :: rest => do let (n, r) ← readDigits i64Max rest; pure (-(n : Int), r)
    | '+' :: rest => do let (n, r) ← readDigits i64Max rest; pure ((n : Int), r)
    | _ => do let (n, r) ← readDigits 4 cs; pure ((n : Int), r)
  if y < -2147483648 ∨ y > 2147483647 then throw .outOfRange
  return (y, rest)

/-- Reads a fraction after its point: up to nine digits count, further digits are skipped. -/
def fractionField (cs : List Char) : Except TimeFault (Nat × List Char) := do
  let (n, rest) ← readDigits 9 cs
  let used := cs.length - rest.length
  let scaled := n * Nat.pow 10 (9 - used)
  return (scaled, rest.dropWhile fun c => (digitValue c).isSome)

/-- The first two characters when the text has at least two bytes, as digit values if both are
digits. -/
def twoDigits (cs : List Char) : Except TimeFault (Option (Nat × Nat)) :=
  if cs.foldl (fun n c => n + c.utf8Size) 0 < 2 then .error .tooShort
  else match cs with
    | a :: b :: _ =>
      match digitValue a, digitValue b with
      | some x, some y => .ok (some (x, y))
      | _, _ => .ok none
    | _ => .ok none

/-- The sign of a zone offset: whether it is west of UTC. -/
def offsetSign (cs : List Char) : Except TimeFault (Bool × List Char) :=
  match cs with
  | '+' :: rest => .ok (false, rest)
  | '-' :: rest => .ok (true, rest)
  | '−' :: rest => .ok (true, rest)
  | [] => .error .tooShort
  | _ => .error .invalid

def offsetHours (cs : List Char) : Except TimeFault Nat := do
  match ← twoDigits cs with
  | some (x, y) => pure (x * 10 + y)
  | none => throw .invalid

/-- The minutes of a zone offset: two digits, the first at most 5. -/
def offsetMinutes (cs : List Char) : Except TimeFault Nat := do
  match ← twoDigits cs with
  | some (x, y) => if x ≤ 5 then pure (x * 10 + y) else throw .outOfRange
  | none => throw .invalid

/-- Reads a zone offset in seconds east of UTC. -/
def offsetField (cs : List Char) : Except TimeFault (Int × List Char) :=
  match cs with
  | 'Z' :: rest | 'z' :: rest => .ok (0, rest)
  | _ => do
    let (negative, cs) ← offsetSign cs
    let hours ← offsetHours cs
    let cs := (cs.drop 2).dropWhile fun c => c == ':' || Text.isBlank c
    let minutes ← offsetMinutes cs
    let seconds : Int := hours * 3600 + minutes * 60
    return (if negative then -seconds else seconds, cs.drop 2)

/-- Whether the text starts with `UTC` in any case. -/
def startsWithUtc (cs : List Char) : Bool :=
  match cs with
  | u :: t :: c :: _ => u.toLower == 'u' && t.toLower == 't' && c.toLower == 'c'
  | _ => false

/-- Takes what stands between the date and the time: `T`, `t` or a blank. -/
def dateTimeSeparator (cs : List Char) : Except TimeFault (List Char) :=
  match cs with
  | 'T' :: r | 't' :: r | ' ' :: r => .ok r
  | [] => .error .tooShort
  | _ => .error .invalid

/-- Reads the fraction of a second after a point, or none. -/
def optionalFraction (cs : List Char) : Except TimeFault (Nat × List Char) :=
  match cs with
  | '.' :: r => fractionField r
  | _ => .ok (0, cs)

/-- Reads the zone: `UTC` in any case, or what `offsetField` reads. -/
def zoneField (cs : List Char) : Except TimeFault (Int × List Char) :=
  if startsWithUtc cs then .ok (0, cs.drop 3) else offsetField cs

def endOfText (cs : List Char) : Except TimeFault Unit :=
  if (skipBlanks cs).isEmpty then .ok () else .error .tooLong

/-- The moment a local date and time stand for at an offset east of UTC, once the date is
checked against its month and the usable years. Second 60 is a leap second: the 59th second
and a whole second more. -/
def momentOf (year : Int) (month day hour minute second nanos : Nat) (offset : Int) :
    Except TimeFault Instant :=
  if year < minYear ∨ year > maxYear ∨ day > daysInMonth year month then .error .outOfRange
  else if offset.natAbs ≥ 86400 then .error .outOfRange
  else
    let (sec, leap) := if second = 60 then (59, 1000000000) else (second, 0)
    let utc := (Instant.ofCivil year month day hour minute sec (nanos + leap)).addSeconds (-offset)
    if utc.inRange then .ok utc else .error .impossible

/-- Reads an RFC 3339 date-time as a moment in UTC. -/
def Instant.parseRfc3339 (s : String) : Except TimeFault Instant := do
  let (year, cs) ← yearField s.toList
  let cs ← literal '-' (skipBlanks cs)
  let (month, cs) ← field 2 1 12 cs
  let cs ← literal '-' (skipBlanks cs)
  let (day, cs) ← field 2 1 31 cs
  let cs ← dateTimeSeparator cs
  let (hour, cs) ← field 2 0 23 cs
  let cs ← literal ':' (skipBlanks cs)
  let (minute, cs) ← field 2 0 59 cs
  let cs ← literal ':' (skipBlanks cs)
  let (second, cs) ← field 2 0 60 cs
  let (nanos, cs) ← optionalFraction cs
  let (offset, cs) ← zoneField (skipBlanks cs)
  endOfText cs
  momentOf year month day hour minute second nanos offset

end ComponentSync.Time
