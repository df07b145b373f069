import ComponentSync.Schema.Unexpected
import ComponentSync.Yaml.Token
/-!
What the text of a scalar means when the reader is not told what to expect, by the core schema
of YAML 1.2: empty, `~` and `null` are null, `true` and `false` (also capitalized or in
capitals) are booleans, integers may be written in decimal or with `0x`, `0o` or `0b`, and
other numbers are decimals with an optional exponent. A decimal integer with a leading zero is
text. Integers are told apart by the smallest of four ranges that holds them: unsigned and
signed 64 bits, then unsigned and signed 128 bits.
-/
namespace ComponentSync.Yaml

open Schema

def boolTag : String := "tag:yaml.org,2002:bool"
def intTag : String := "tag:yaml.org,2002:int"
def floatTag : String := "tag:yaml.org,2002:float"
def nullTag : String := "tag:yaml.org,2002:null"

/-- Whether a scalar's text means null; the empty text is treated apart. -/
def isNullText (s : String) : Bool :=
  s == "~" || s == "null" || s == "Null" || s == "NULL"

def boolOfText (s : String) : Option Bool :=
  if s == "true" || s == "True" || s == "TRUE" then some true
  else if s == "false" || s == "False" || s == "FALSE" then some false
  else none

def u64Max : Nat := Nat.pow 2 64 - 1
def i64Max : Nat := Nat.pow 2 63 - 1
def u128Max : Nat := Nat.pow 2 128 - 1
def i128Max : Nat := Nat.pow 2 127 - 1

/-- Reads digits in `radix` as a number no larger than `max`, accepting one leading `+`. -/
def readRadix (radix max : Nat) (s : String) : Option Nat :=
  let digits := match s.toList with
    | '+' :: rest => rest
    | cs => cs
  if digits.isEmpty then none
  else
    digits.foldl (fun acc c =>
      acc.bind fun n =>
        let d := if '0' ≤ c && c ≤ '9' then some (c.toNat - '0'.toNat)
          else if 'a' ≤ c && c ≤ 'z' then some (c.toNat - 'a'.toNat + 10)
          else if 'A' ≤ c && c ≤ 'Z' then some (c.toNat - 'A'.toNat + 10)
          else none
        d.bind fun d => if d < radix && n * radix + d ≤ max then some (n * radix + d) else none)
      (some 0)

/-- Reads a signed number in `radix` whose magnitude is at most `max` (one more when negative),
with one optional sign. -/
def readSignedRadix (radix max : Nat) (s : String) : Option Int :=
  match s.toList with
  | '-' :: rest =>
    if rest.isEmpty || rest.head? == some '+' then none
    else (readRadix radix (max + 1) (String.ofList rest)).map fun n => -(n : Int)
  | _ => (readRadix radix max s).map fun n => (n : Int)

/-- Whether a text is a decimal number with a leading zero, such as `007`, which YAML 1.2
reads as text. -/
def digitsButNotNumber (s : String) : Bool :=
  let cs := match s.toList with
    | '-' :: rest | '+' :: rest => rest
    | cs => cs
  cs.length > 1 && cs.head? == some '0' && (cs.drop 1).all Char.isDigit

/-- The text after a prefix, if it starts with it. -/
def afterPrefix (s pre : String) : Option String :=
  if s.startsWith pre then some (String.ofList (s.toList.drop pre.length)) else none

def startsSigned (s : String) : Bool :=
  s.startsWith "+" || s.startsWith "-"

/-- Reads an unsigned integer no larger than `max`: an optional `+`, then decimal digits or
`0x`, `0o` or `0b` and digits of that base. -/
def unsignedOfText (max : Nat) (s : String) : Option Nat :=
  let body := (afterPrefix s "+").getD s
  let based (pre : String) (radix : Nat) : Option Nat :=
    (afterPrefix body pre).bind fun rest =>
      if startsSigned rest then none else readRadix radix max rest
  let signedPrefix := [("0x", 16), ("0o", 8), ("0b", 2)].any fun (pre, _) =>
    match afterPrefix body pre with
    | some rest => startsSigned rest
    | none => false
  if signedPrefix then none
  else (based "0x" 16 <|> based "0o" 8 <|> based "0b" 2) <|>
    if startsSigned body || digitsButNotNumber s then none else readRadix 10 max body

/-- Reads a signed integer whose magnitude is at most `max`: decimal, or `-0x`, `-0o` or `-0b`
and digits of that base. -/
def signedOfText (max : Nat) (s : String) : Option Int :=
  let based (pre : String) (radix : Nat) : Option Int :=
    (afterPrefix s pre).bind fun rest => readSignedRadix radix max ("-" ++ rest)
  (based "-0x" 16 <|> based "-0o" 8 <|> based "-0b" 2) <|>
    if digitsButNotNumber s then none else readSignedRadix 10 max s

/-- Reads the decimal form `digits [. digits] [e [sign] digits]` (at least one digit before or
after the point), as a significand and a power of ten. -/
def decimalParts (cs : List Char) : Option (Nat × Int) :=
  let whole := cs.takeWhile Char.isDigit
  let rest := cs.dropWhile Char.isDigit
  let (frac, rest) := match rest with
    | '.' :: r => (r.takeWhile Char.isDigit, some (r.dropWhile Char.isDigit))
    | r => ([], some r)
  match rest with
  | none => none
  | some rest =>
    if whole.isEmpty && frac.isEmpty then none
    else
      let expo : Option Int := match rest with
        | [] => some 0
        | e :: r =>
          if e == 'e' || e == 'E' then
            let (neg, ds) := match r with
              | '-' :: ds => (true, ds)
              | '+' :: ds => (false, ds)
              | ds => (false, ds)
            if ds.isEmpty || !ds.all Char.isDigit then none
            else
              let n : Int := ds.foldl (fun n c => n * 10 + (c.toNat - '0'.toNat)) 0
              some (if neg then -n else n)
          else none
      expo.map fun x =>
        let digits := whole ++ frac
        (digits.foldl (fun n c => n * 10 + (c.toNat - '0'.toNat)) 0, x - frac.length)

/-- The nearest binary64 number to `m × 10 ^ e`, with the sign given. -/
def decimalToFloat (negative : Bool) (m : Nat) (e : Int) : Float :=
  let magnitude : Float :=
    if m == 0 then 0.0
    else
      let size : Int := (toString m).length
      if size + e > 310 then Float.ofBits 0x7FF0000000000000
      else if size + e < -330 then 0.0
      else if e ≥ 0 then Float.ofScientific m false e.toNat
      else Float.ofScientific m true e.natAbs
  if negative then -magnitude else magnitude

/-- Reads a finite floating-point number: an optional `+` or `-` and a decimal form, or one of
`.inf`, `-.inf` and `.nan` in the three spellings of each. -/
def floatOfText (s : String) : Option Float :=
  let body := (afterPrefix s "+").getD s
  if s.startsWith "+" && startsSigned body then none
  else if body == ".inf" || body == ".Inf" || body == ".INF" then some (Float.ofBits 0x7FF0000000000000)
  else if s == "-.inf" || s == "-.Inf" || s == "-.INF" then some (Float.ofBits 0xFFF0000000000000)
  else if s == ".nan" || s == ".NaN" || s == ".NAN" then some (Float.ofBits 0x7FF8000000000000)
  else
    let (negative, cs) := match body.toList with
      | '-' :: r => (true, r)
      | '+' :: r => (false, r)
      | cs => (false, cs)
    (decimalParts cs).bind fun (m, e) =>
      let f := decimalToFloat negative m e
      if f.isFinite then some f else none

/-- An integer as a found value: by the smallest of the four ranges that holds it. -/
def integerOfText (s : String) : Option Unexpected :=
  match unsignedOfText u64Max s with
  | some n => some (.unsigned n)
  | none =>
    match signedOfText i64Max s with
    | some i => some (.signed i)
    | none =>
      match unsignedOfText u128Max s with
      | some n => some (.other ("integer `" ++ toString n ++ "` as u128"))
      | none =>
        (signedOfText i128Max s).map fun i => .other ("integer `" ++ toString i ++ "` as i128")

/-- What an untagged plain scalar is, as a found value. -/
def plainValue (s : String) : Unexpected :=
  if s.isEmpty || isNullText s then .unit
  else match boolOfText s with
    | some b => .bool b
    | none =>
      match integerOfText s with
      | some v => v
      | none =>
        if digitsButNotNumber s then .str s
        else match floatOfText s with
          | some f => .float f
          | none => .str s

/-- A scalar whose tag names a core type but whose text is not of that type. -/
structure TagMismatch where
  text : String
  /-- What the tag promised, as messages name it. -/
  expected : String

/-- What a scalar is, as a found value: its tag decides when it names a core type, a local tag
(`!name`) on a plain scalar is ignored, and any other tagged or quoted scalar is text. -/
def scalarValue (tag : Option String) (text : String) (style : ScalarStyle) :
    Except TagMismatch Unexpected :=
  match tag with
  | some t =>
    if t == boolTag then
      match boolOfText text with
      | some b => .ok (.bool b)
      | none => .error ⟨text, "a boolean"⟩
    else if t == intTag then
      match integerOfText text with
      | some v => .ok v
      | none => .error ⟨text, "an integer"⟩
    else if t == floatTag then
      match floatOfText text with
      | some f => .ok (.float f)
      | none => .error ⟨text, "a float"⟩
    else if t == nullTag then
      if isNullText text then .ok .unit else .error ⟨text, "null"⟩
    else if t.startsWith "!" && style == .plain then .ok (plainValue text)
    else .ok (.str text)
  | none => if style == .plain then .ok (plainValue text) else .ok (.str text)

end ComponentSync.Yaml
