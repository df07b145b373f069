import ComponentSync.Schema.Unexpected
/-!
A streaming JSON reader. Every step takes the unread input and returns what it read with the
input after it, so a failure can say how far reading got. Positions count bytes: a failure is
reported at the byte after the last one read, or, for a failure found by looking at the next
byte without taking it, at that byte.

Numbers become unsigned or signed integers when they have no fraction or exponent and fit in
64 bits, and binary64 numbers otherwise. Strings must be closed, control characters must be
escaped, and `\u` escapes of surrogates must come in pairs.
-/
namespace ComponentSync.Json

inductive Fault
  | eofList
  | eofObject
  | eofString
  | eofValue
  | expectedColon
  | expectedListCommaOrEnd
  | expectedObjectCommaOrEnd
  | expectedIdent
  | expectedValue
  | invalidEscape
  | invalidNumber
  | numberOutOfRange
  | controlCharacter
  | keyMustBeString
  | loneLeadingSurrogate
  | trailingComma
  | trailingCharacters
  | unexpectedEndOfHexEscape
  /-- A complaint of the typed layer above the reader. -/
  | custom (msg : String)

def Fault.text : Fault → String
  | .eofList => "EOF while parsing a list"
  | .eofObject => "EOF while parsing an object"
  | .eofString => "EOF while parsing a string"
  | .eofValue => "EOF while parsing a value"
  | .expectedColon => "expected `:`"
  | .expectedListCommaOrEnd => "expected `,` or `]`"
  | .expectedObjectCommaOrEnd => "expected `,` or `\x7d`"
  | .expectedIdent => "expected ident"
  | .expectedValue => "expected value"
  | .invalidEscape => "invalid escape"
  | .invalidNumber => "invalid number"
  | .numberOutOfRange => "number out of range"
  | .controlCharacter => "control character (\\u0000-\\u001F) found while parsing a string"
  | .keyMustBeString => "key must be a string"
  | .loneLeadingSurrogate => "lone leading surrogate in hex escape"
  | .trailingComma => "trailing comma"
  | .trailingCharacters => "trailing characters"
  | .unexpectedEndOfHexEscape => "unexpected end of hex escape"
  | .custom msg => msg

/-- A failure and where it was found: the unread input then, and how many bytes of its first
character count as read. Reading goes byte by byte, so a failure on a character whose UTF-8
form is longer than one byte is placed after its first byte. -/
structure ReadError where
  fault : Fault
  rest : List Char
  taken : Nat

/-- A failure found after taking the input up to `rest`. -/
def failAt (f : Fault) (rest : List Char) : ReadError := ⟨f, rest, 0⟩

/-- A failure found on the first byte of `rest`, looked at or taken. -/
def failNext (f : Fault) (rest : List Char) : ReadError := ⟨f, rest, 1⟩

/-- The number of bytes in the UTF-8 form of some characters. -/
def byteCount (cs : List Char) : Nat :=
  cs.foldl (fun n c => n + c.utf8Size) 0

/-- Line (from 1) and column (bytes since the last line feed) after `index` bytes. -/
def lineColumn (input : List Char) (index : Nat) : Nat × Nat :=
  let rec go (cs : List Char) (offset line lineStart : Nat) : Nat × Nat :=
    match cs with
    | [] => (line, index - lineStart)
    | c :: rest =>
      if offset ≥ index then (line, index - lineStart)
      else if c == '\n' then go rest (offset + 1) (line + 1) (offset + 1)
      else go rest (offset + c.utf8Size) line lineStart
  go input 0 1 0

def ReadError.index (input : List Char) (e : ReadError) : Nat :=
  let total := byteCount input
  let i := total - byteCount e.rest
  min total (i + e.taken)

/-- The text of a failure, with its line and column in `input`. -/
def ReadError.message (input : List Char) (e : ReadError) : String :=
  let (line, col) := lineColumn input (e.index input)
  e.fault.text ++ " at line " ++ toString line ++ " column " ++ toString col

/-- A reading step: a value and the unread input after it. -/
abbrev Step (α : Type) := List Char → Except ReadError (α × List Char)

def isSpace (c : Char) : Bool :=
  c == ' ' || c == '\n' || c == '\t' || c == '\r'

def skipSpace (cs : List Char) : List Char :=
  cs.dropWhile isSpace

/-- Takes the given characters of a keyword after its first one. -/
def expectWord : List Char → List Char → Except ReadError (List Char)
  | [], rest => .ok rest
  | _ :: _, [] => .error (failAt .eofValue [])
  | e :: es, c :: rest =>
    if c == e then expectWord es rest else .error (failNext .expectedIdent (c :: rest))

def hexValue (c : Char) : Option Nat :=
  if '0' ≤ c ∧ c ≤ '9' then some (c.toNat - '0'.toNat)
  else if 'a' ≤ c ∧ c ≤ 'f' then some (c.toNat - 'a'.toNat + 10)
  else if 'A' ≤ c ∧ c ≤ 'F' then some (c.toNat - 'A'.toNat + 10)
  else none

/-- The whole characters within the first `n` bytes, the rest, and how many of those bytes
start the first character of the rest. -/
def takeBytes : Nat → List Char → List Char × List Char × Nat
  | n, c :: rest =>
    if c.utf8Size ≤ n then
      let (taken, after, spill) := takeBytes (n - c.utf8Size) rest
      (c :: taken, after, spill)
    else ([], c :: rest, n)
  | n, [] => ([], [], n)

/-- Reads the four hexadecimal digits of a `\u` escape: four bytes are taken before they are
looked at. -/
def hex4 (cs : List Char) : Except ReadError (Nat × List Char) :=
  if byteCount cs < 4 then .error (failAt .eofString [])
  else
    let (taken, rest, spill) := takeBytes 4 cs
    match taken.mapM hexValue with
    | some [a, b, c, d] => .ok (((a * 16 + b) * 16 + c) * 16 + d, rest)
    | _ => .error ⟨.invalidEscape, rest, spill⟩

/-- Reads a `\u` escape after the `u`, joining a surrogate pair into one character. -/
def unicodeEscape (cs : List Char) : Except ReadError (Char × List Char) := do
  let (n, rest) ← hex4 cs
  if 0xDC00 ≤ n ∧ n ≤ 0xDFFF then throw (failAt .loneLeadingSurrogate rest)
  if n < 0xD800 ∨ n > 0xDBFF then return (Char.ofNat n, rest)
  match rest with
  | [] => throw (failAt .eofString [])
  | '\\' :: rest =>
    match rest with
    | [] => throw (failAt .eofString [])
    | 'u' :: rest =>
      let (n2, rest) ← hex4 rest
      if n2 < 0xDC00 ∨ n2 > 0xDFFF then throw (failAt .loneLeadingSurrogate rest)
      return (Char.ofNat (((n - 0xD800) * 1024 ||| (n2 - 0xDC00)) + 0x10000), rest)
    | other => throw (failNext .unexpectedEndOfHexEscape other)
  | other => throw (failNext .unexpectedEndOfHexEscape other)

/-- Reads the character an escape stands for, after the backslash. -/
def escape (cs : List Char) : Except ReadError (Char × List Char) :=
  match cs with
  | [] => .error (failAt .eofString [])
  | '"' :: rest => .ok ('"', rest)
  | '\\' :: rest => .ok ('\\', rest)
  | '/' :: rest => .ok ('/', rest)
  | 'b' :: rest => .ok ('\x08', rest)
  | 'f' :: rest => .ok ('\x0c', rest)
  | 'n' :: rest => .ok ('\n', rest)
  | 'r' :: rest => .ok ('\r', rest)
  | 't' :: rest => .ok ('\t', rest)
  | 'u' :: rest => unicodeEscape rest
  | other => .error (failNext .invalidEscape other)

/-- Reads the rest of a string after its opening quote. -/
def readString (cs : List Char) : Except ReadError (String × List Char) :=
  go (cs.length + 1) [] cs
where
  go : Nat → List Char → List Char → Except ReadError (String × List Char)
    | 0, _, rest => .error (failAt .eofString rest)
    | _, _, [] => .error (failAt .eofString [])
    | fuel + 1, acc, c :: rest =>
      if c == '"' then .ok (String.ofList acc.reverse, rest)
      else if c == '\\' then
        match escape rest with
        | .ok (e, rest) => go fuel (e :: acc) rest
        | .error err => .error err
      else if c.toNat < 0x20 then .error (failAt .controlCharacter rest)
      else go fuel (c :: acc) rest

/-- Skips the rest of a string after its opening quote, checking it as `readString` does; a
control character is reported before it is taken. -/
def skipString (cs : List Char) : Except ReadError (List Char) :=
  go (cs.length + 1) cs
where
  go : Nat → List Char → Except ReadError (List Char)
    | 0, rest => .error (failAt .eofString rest)
    | _, [] => .error (failAt .eofString [])
    | fuel + 1, c :: rest =>
      if c == '"' then .ok rest
      else if c == '\\' then
        match rest with
        | [] => .error (failAt .eofString [])
        | e :: after =>
          if e == '"' || e == '\\' || e == '/' || e == 'b' || e == 'f' || e == 'n' || e == 'r' ||
              e == 't' then go fuel after
          else if e == 'u' then
            match hex4 after with
            | .ok (_, after) => go fuel after
            | .error err => .error err
          else .error (failNext .invalidEscape (e :: after))
      else if c.toNat < 0x20 then .error (failAt .controlCharacter (c :: rest))
      else go fuel rest

/-- A number as read: unsigned or signed when integral and in 64 bits, else binary64. -/
inductive Number
  | unsigned (n : Nat)
  | signed (i : Int)
  | float (f : Float)

def u64Max : Nat := 18446744073709551615

/-- Whether appending a digit to `a` would pass `max`. -/
def overflows (a d max : Nat) : Bool :=
  a ≥ max / 10 && (a > max / 10 || d > max % 10)

/-- The digit value of a character, if it is one. -/
def digitOf (c : Char) : Option Nat :=
  if '0' ≤ c ∧ c ≤ '9' then some (c.toNat - '0'.toNat) else none

def skipDigits (cs : List Char) : List Char :=
  cs.dropWhile fun c => (digitOf c).isSome

def signedFloat (positive : Bool) (f : Float) : Float :=
  if positive then f else -f

/-- Finishes a number from its significand and decimal exponent. -/
def fromParts (positive : Bool) (significand : Nat) (exponent : Int) (rest : List Char) :
    Except ReadError (Number × List Char) :=
  match Number.scaleByPow10 significand exponent with
  | some f => .ok (.float (signedFloat positive f), rest)
  | none => .error (failAt .numberOutOfRange rest)

/-- The exponent part of a number, after the `e`. -/
def readExponent (positive : Bool) (significand : Nat) (start : Int) (cs : List Char) :
    Except ReadError (Number × List Char) :=
  let (positiveExp, cs) := match cs with
    | '+' :: rest => (true, rest)
    | '-' :: rest => (false, rest)
    | _ => (true, cs)
  let fin (exp : Nat) (rest : List Char) : Except ReadError (Number × List Char) :=
    let total : Int := if positiveExp then start + exp else start - exp
    let total := max (-2147483648) (min 2147483647 total)
    fromParts positive significand total rest
  let rec more (exp : Nat) (cs : List Char) : Except ReadError (Number × List Char) :=
    match cs with
    | c :: rest =>
      match digitOf c with
      | some d =>
        if overflows exp d 2147483647 then
          if significand != 0 && positiveExp then .error (failAt .numberOutOfRange rest)
          else .ok (.float (signedFloat positive 0.0), skipDigits rest)
        else more (exp * 10 + d) rest
      | none => fin exp cs
    | [] => fin exp []
  match cs with
  | [] => .error (failAt .eofValue [])
  | c :: rest =>
    match digitOf c with
    | none => .error (failNext .invalidNumber (c :: rest))
    | some d => more d rest

/-- The fraction part of a number, after the point. -/
def readFraction (positive : Bool) (significand : Nat) (start : Int) (cs : List Char) :
    Except ReadError (Number × List Char) :=
  let rec digits (sig : Nat) (after : Int) (cs : List Char) :
      Except ReadError (Number × List Char) :=
    match cs with
    | c :: rest =>
      match digitOf c with
      | some d =>
        if overflows sig d u64Max then
          let rest := skipDigits cs
          match rest with
          | 'e' :: more | 'E' :: more => readExponent positive sig (start + after) more
          | _ => fromParts positive sig (start + after) rest
        else digits (sig * 10 + d) (after - 1) rest
      | none => finish sig after cs
    | [] => finish sig after []
  digits significand 0 cs
where
  finish (sig : Nat) (after : Int) (rest : List Char) : Except ReadError (Number × List Char) :=
    if after == 0 then
      match rest with
      | [] => .error (failNext .eofValue [])
      | _ => .error (failNext .invalidNumber rest)
    else
      match rest with
      | 'e' :: more | 'E' :: more => readExponent positive sig (start + after) more
      | _ => fromParts positive sig (start + after) rest

def readTail (positive : Bool) (significand : Nat) (rest : List Char) :
    Except ReadError (Number × List Char) :=
  match rest with
  | '.' :: more => readFraction positive significand 0 more
  | 'e' :: more | 'E' :: more => readExponent positive significand 0 more
  | _ =>
    if positive then .ok (.unsigned significand, rest)
    else if significand == 0 || significand > Nat.pow 2 63 then
      .ok (.float (-(Number.ofNatRounded significand)), rest)
    else .ok (.signed (-(significand : Int)), rest)

/-- Digits past 64 bits: they only scale the number. -/
def readLong (positive : Bool) (significand : Nat) (cs : List Char) :
    Except ReadError (Number × List Char) :=
  go 0 cs
where
  go (exp : Int) : List Char → Except ReadError (Number × List Char)
    | c :: rest =>
      match digitOf c with
      | some _ => go (exp + 1) rest
      | none =>
        match c with
        | '.' => readFraction positive significand exp rest
        | 'e' | 'E' => readExponent positive significand exp rest
        | _ => fromParts positive significand exp (c :: rest)
    | [] => fromParts positive significand exp []

def readNumber (positive : Bool) (cs : List Char) : Except ReadError (Number × List Char) :=
  match cs with
  | [] => .error (failAt .eofValue [])
  | '0' :: rest =>
    match rest with
    | c :: _ => if (digitOf c).isSome then .error (failNext .invalidNumber rest)
      else readTail positive 0 rest
    | [] => readTail positive 0 []
  | c :: rest =>
    match digitOf c with
    | none => .error (failNext .invalidNumber (c :: rest))
    | some d =>
      let rec integral (sig : Nat) (cs : List Char) : Except ReadError (Number × List Char) :=
        match cs with
        | c :: rest =>
          match digitOf c with
          | some d => if overflows sig d u64Max then readLong positive sig cs
            else integral (sig * 10 + d) rest
          | none => readTail positive sig cs
        | [] => readTail positive sig []
      integral d rest

/-- Skips a number after its optional minus sign, checking its form. -/
def skipNumber (cs : List Char) : Except ReadError (List Char) :=
  let integral : Except ReadError (List Char) :=
    match cs with
    | '0' :: rest =>
      match rest with
      | c :: _ => if (digitOf c).isSome then .error (failNext .invalidNumber rest) else .ok rest
      | [] => .ok []
    | c :: rest =>
      if (digitOf c).isSome then .ok (skipDigits rest)
      else .error (failNext .invalidNumber (c :: rest))
    | [] => .error (failAt .invalidNumber [])
  match integral with
  | .error e => .error e
  | .ok rest =>
    let exponent (cs : List Char) : Except ReadError (List Char) :=
      let cs := match cs with
        | '+' :: r | '-' :: r => r
        | _ => cs
      match cs with
      | c :: r =>
        if (digitOf c).isSome then .ok (skipDigits r) else .error (failNext .invalidNumber (c :: r))
      | [] => .error (failAt .invalidNumber [])
    match rest with
    | '.' :: more =>
      let after := skipDigits more
      if after.length == more.length then .error (failNext .invalidNumber more)
      else
        match after with
        | 'e' :: r | 'E' :: r => exponent r
        | _ => .ok after
    | 'e' :: r | 'E' :: r => exponent r
    | _ => .ok rest

/-- Skips one complete value of any kind, checking its form. -/
def skipValue (cs : List Char) : Except ReadError (List Char) :=
  value (cs.length + 2) [] cs
where
  /-- Reads the start of a value with the open brackets `stack` around it. -/
  value : Nat → List Char → List Char → Except ReadError (List Char)
    | 0, _, cs => .error (failAt .eofValue cs)
    | fuel + 1, stack, cs =>
      let cs := skipSpace cs
      let scalar (r : Except ReadError (List Char)) : Except ReadError (List Char) :=
        match r with
        | .error e => .error e
        | .ok rest =>
          match stack with
          | [] => .ok rest
          | frame :: below => close fuel below true frame rest
      match cs with
      | [] => .error (failNext .eofValue [])
      | 'n' :: rest => scalar (expectWord ['u', 'l', 'l'] rest)
      | 't' :: rest => scalar (expectWord ['r', 'u', 'e'] rest)
      | 'f' :: rest => scalar (expectWord ['a', 'l', 's', 'e'] rest)
      | '-' :: rest => scalar (skipNumber rest)
      | '"' :: rest => scalar (skipString rest)
      | '[' :: rest => close fuel stack false '[' rest
      | '{' :: rest => close fuel stack false '{' rest
      | c :: rest =>
        if (digitOf c).isSome then scalar (skipNumber (c :: rest))
        else .error (failNext .expectedValue (c :: rest))
  /-- After a value inside the bracket `frame`: a comma, the closing bracket, or the first
  item of a bracket just opened. -/
  close : Nat → List Char → Bool → Char → List Char → Except ReadError (List Char)
    | 0, _, _, _, cs => .error (failAt .eofValue cs)
    | fuel + 1, stack, acceptComma, frame, cs =>
      let cs := skipSpace cs
      let closing := if frame == '[' then ']' else '\x7d'
      match cs with
      | [] => .error (failNext (if frame == '[' then .eofList else .eofObject) [])
      | c :: rest =>
        if c == ',' && acceptComma then item fuel stack frame rest
        else if c == closing then
          match stack with
          | [] => .ok rest
          | up :: below => close fuel below true up rest
        else if acceptComma then
          .error (failNext (if frame == '[' then .expectedListCommaOrEnd
            else .expectedObjectCommaOrEnd) cs)
        else item fuel stack frame cs
  /-- The next item inside `frame`: a value, or for an object a key, a colon and a value. -/
  item : Nat → List Char → Char → List Char → Except ReadError (List Char)
    | 0, _, _, cs => .error (failAt .eofValue cs)
    | fuel + 1, stack, frame, cs =>
      if frame == '[' then value fuel ('[' :: stack) cs
      else
        let cs := skipSpace cs
        match cs with
        | [] => .error (failNext .eofObject [])
        | '"' :: rest =>
          match skipString rest with
          | .error e => .error e
          | .ok rest =>
            let rest := skipSpace rest
            match rest with
            | ':' :: after => value fuel ('{' :: stack) after
            | [] => .error (failNext .eofObject [])
            | _ => .error (failNext .expectedColon rest)
        | _ => .error (failNext .keyMustBeString cs)

end ComponentSync.Json
