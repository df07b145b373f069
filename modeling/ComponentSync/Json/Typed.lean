import ComponentSync.Json.Reader
/-!
Reading JSON into typed values. A typed read looks at the next value and either takes it or
complains: a value of the wrong kind is described ("invalid type: sequence, expected a map"),
and the complaint is placed after the value when the reader had to take it to describe it
(strings, numbers, keywords) and at the value otherwise (arrays and objects).

A record is read from an object, fields in any order, unknown fields skipped, or from an array
holding its fields in order. A complaint about the record as a whole (a missing, repeated or
short field list) is placed where reading stands once the closing bracket has been looked for.
-/
namespace ComponentSync.Json

open Schema

/-- A complaint of the typed layer, placed after the input up to `rest`. -/
def complain (msg : String) (rest : List Char) : ReadError :=
  failAt (.custom msg) rest

def Number.unexpected : Number → Unexpected
  | .unsigned n => .unsigned n
  | .signed i => .signed i
  | .float f => .float f

/-- Takes the next value to describe it in a complaint that `expected` was wanted. -/
def wrongKind (expected : String) (cs : List Char) : ReadError :=
  let found (u : Unexpected) (rest : List Char) : ReadError :=
    complain (invalidType jsonWording u expected) rest
  match cs with
  | 'n' :: rest =>
    match expectWord ['u', 'l', 'l'] rest with
    | .ok rest => found .unit rest
    | .error e => e
  | 't' :: rest =>
    match expectWord ['r', 'u', 'e'] rest with
    | .ok rest => found (.bool true) rest
    | .error e => e
  | 'f' :: rest =>
    match expectWord ['a', 'l', 's', 'e'] rest with
    | .ok rest => found (.bool false) rest
    | .error e => e
  | '-' :: rest =>
    match readNumber false rest with
    | .ok (n, rest) => found n.unexpected rest
    | .error e => e
  | '"' :: rest =>
    match readString rest with
    | .ok (s, rest) => found (.str s) rest
    | .error e => e
  | '[' :: _ => found .seq cs
  | '{' :: _ => found .map cs
  | c :: rest =>
    if (digitOf c).isSome then
      match readNumber true (c :: rest) with
      | .ok (n, rest) => found n.unexpected rest
      | .error e => e
    else failNext .expectedValue cs
  | [] => failNext .expectedValue []

/-- Reads a string; `expected` names what was wanted when something else is there. -/
def readText (expected : String) (cs : List Char) : Except ReadError (String × List Char) :=
  match skipSpace cs with
  | [] => .error (failNext .eofValue [])
  | '"' :: rest => readString rest
  | cs => .error (wrongKind expected cs)

def readU64 (cs : List Char) : Except ReadError (Nat × List Char) :=
  let visit : Except ReadError (Number × List Char) → Except ReadError (Nat × List Char)
    | .ok (.unsigned n, rest) => .ok (n, rest)
    | .ok (.signed i, rest) => .error (complain (invalidValue jsonWording (.signed i) "u64") rest)
    | .ok (.float f, rest) => .error (complain (invalidType jsonWording (.float f) "u64") rest)
    | .error e => .error e
  match skipSpace cs with
  | [] => .error (failNext .eofValue [])
  | '-' :: rest => visit (readNumber false rest)
  | c :: rest =>
    if (digitOf c).isSome then visit (readNumber true (c :: rest))
    else .error (wrongKind "u64" (c :: rest))

def endObject (cs : List Char) : Except ReadError (List Char) :=
  match skipSpace cs with
  | '\x7d' :: rest => .ok rest
  | ',' :: rest => .error (failNext .trailingComma (',' :: rest))
  | [] => .error (failNext .eofObject [])
  | cs => .error (failNext .trailingCharacters cs)

def endArray (cs : List Char) : Except ReadError (List Char) :=
  match skipSpace cs with
  | ']' :: rest => .ok rest
  | ',' :: rest =>
    match skipSpace rest with
    | ']' :: more => .error (failNext .trailingComma (']' :: more))
    | more => .error (failNext .trailingCharacters more)
  | [] => .error (failNext .eofList [])
  | cs => .error (failNext .trailingCharacters cs)

/-- Where reading stands after looking for a closing bracket with `close`. -/
def afterClose (close : List Char → Except ReadError (List Char)) (cs : List Char) :
    List Char :=
  match close cs with
  | .ok rest => rest
  | .error e => if e.taken > 0 then e.rest else skipSpace cs

/-- The next key of an object, or `none` at its end; `first` tells whether a key came yet. -/
def nextKey (first : Bool) (cs : List Char) : Except ReadError (Option String × List Char) :=
  let key (cs : List Char) : Except ReadError (Option String × List Char) :=
    match cs with
    | '"' :: rest =>
      match readString rest with
      | .ok (k, rest) => .ok (some k, rest)
      | .error e => .error e
    | '\x7d' :: _ => .error (failNext .trailingComma cs)
    | [] => .error (failNext .eofValue [])
    | _ => .error (failNext .keyMustBeString cs)
  match skipSpace cs with
  | '\x7d' :: rest => .ok (none, '\x7d' :: rest)
  | [] => .error (failNext .eofObject [])
  | ',' :: rest => if first then key (',' :: rest) else key (skipSpace rest)
  | cs => if first then key cs else .error (failNext .expectedObjectCommaOrEnd cs)

/-- Takes the colon between a key and its value. -/
def colon (cs : List Char) : Except ReadError (List Char) :=
  match skipSpace cs with
  | ':' :: rest => .ok rest
  | [] => .error (failNext .eofObject [])
  | cs => .error (failNext .expectedColon cs)

/-- Whether an array has another item; `first` tells whether an item came yet. -/
def nextItem (first : Bool) (cs : List Char) : Except ReadError (Bool × List Char) :=
  match skipSpace cs with
  | [] => .error (failNext .eofList [])
  | ']' :: rest => .ok (false, ']' :: rest)
  | cs =>
    if first then .ok (true, cs)
    else match cs with
      | ',' :: rest =>
        match skipSpace rest with
        | ']' :: more => .error (failNext .trailingComma (']' :: more))
        | [] => .error (failNext .eofValue [])
        | more => .ok (true, more)
      | _ => .error (failNext .expectedListCommaOrEnd cs)

/-- One field of a record being read into a state `σ`. -/
structure RecordField (σ : Type) where
  name : String
  present : σ → Bool
  read : σ → List Char → Except ReadError (σ × List Char)

/-- Reads a record named `name` with the given fields, starting from `init`; `finish` turns the
state into the value or names the first missing field. -/
def readRecord {σ α : Type} (name : String) (fields : List (RecordField σ)) (init : σ)
    (finish : σ → Except String α) (cs : List Char) : Except ReadError (α × List Char) :=
  let whole (msg : String) (close : List Char → Except ReadError (List Char)) (at_ : List Char) :
      ReadError :=
    complain msg (afterClose close at_)
  match skipSpace cs with
  | [] => .error (failNext .eofValue [])
  | '\x7b' :: rest =>
    let rec entries (fuel : Nat) (first : Bool) (st : σ) (cs : List Char) :
        Except ReadError (σ × List Char) :=
      match fuel with
      | 0 => .error (failAt .eofObject cs)
      | fuel + 1 =>
        match nextKey first cs with
        | .error e => .error e
        | .ok (none, rest) => .ok (st, rest)
        | .ok (some k, rest) =>
          match fields.find? (·.name == k) with
          | some f =>
            if f.present st then .error (whole (duplicateField k) endObject rest)
            else
              match colon rest with
              | .error e => .error e
              | .ok rest =>
                match f.read st rest with
                | .ok (st, rest) => entries fuel false st rest
                | .error e => .error e
          | none =>
            match colon rest with
            | .error e => .error e
            | .ok rest =>
              match skipValue rest with
              | .ok rest => entries fuel false st rest
              | .error e => .error e
    match entries (rest.length + 1) true init rest with
    | .error e => .error e
    | .ok (st, at_) =>
      match finish st with
      | .error msg => .error (whole msg endObject at_)
      | .ok v =>
        match endObject at_ with
        | .ok after => .ok (v, after)
        | .error e => .error e
  | '[' :: rest =>
    let n := fields.length
    let rec items (i : Nat) (fs : List (RecordField σ)) (st : σ) (cs : List Char) :
        Except ReadError (σ × List Char) :=
      match fs with
      | [] => .ok (st, cs)
      | f :: more =>
        match nextItem (i == 0) cs with
        | .error e => .error e
        | .ok (false, at_) =>
          .error (whole (invalidLength i (recordWith name n)) endArray at_)
        | .ok (true, rest) =>
          match f.read st rest with
          | .ok (st, rest) => items (i + 1) more st rest
          | .error e => .error e
    match items 0 fields init rest with
    | .error e => .error e
    | .ok (st, at_) =>
      match finish st with
      | .error msg => .error (whole msg endArray at_)
      | .ok v =>
        match endArray at_ with
        | .ok after => .ok (v, after)
        | .error e => .error e
  | cs => .error (wrongKind ("struct " ++ name) cs)

/-- Reads an object into a sorted map, a later key winning over an earlier one. -/
def readMap {α : Type} (readValue : List Char → Except ReadError (α × List Char))
    (cs : List Char) : Except ReadError (List (String × α) × List Char) :=
  match skipSpace cs with
  | [] => .error (failNext .eofValue [])
  | '\x7b' :: rest =>
    let rec entries (fuel : Nat) (first : Bool) (acc : List (String × α)) (cs : List Char) :
        Except ReadError (List (String × α) × List Char) :=
      match fuel with
      | 0 => .error (failAt .eofObject cs)
      | fuel + 1 =>
        match nextKey first cs with
        | .error e => .error e
        | .ok (none, rest) => .ok (acc.reverse, rest)
        | .ok (some k, rest) =>
          match colon rest with
          | .error e => .error e
          | .ok rest =>
            match readValue rest with
            | .ok (v, rest) => entries fuel false ((k, v) :: acc) rest
            | .error e => .error e
    match entries (rest.length + 1) true [] rest with
    | .error e => .error e
    | .ok (pairs, at_) =>
      match endObject at_ with
      | .ok after => .ok (pairs, after)
      | .error e => .error e
  | cs => .error (wrongKind "a map" cs)

/-- Reads a whole document: one value and nothing after it but white space. -/
def readDocument {α : Type} (read : List Char → Except ReadError (α × List Char))
    (input : List Char) : Except ReadError α :=
  match read input with
  | .error e => .error e
  | .ok (v, rest) =>
    match skipSpace rest with
    | [] => .ok v
    | more => .error (failNext .trailingCharacters more)

end ComponentSync.Json
