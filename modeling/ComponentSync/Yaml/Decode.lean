import ComponentSync.Yaml.Document
import ComponentSync.Yaml.Scalar
/-!
Reading typed values from a loaded YAML document. A reader takes the node at a position and
returns the value and the position after the node. An alias is read through the node it points
at.

Errors name the path to the value (`component.ports[0]`) and where it starts in the text. The
first error found wins, and an error of the text itself counts only once the reader needs an
event past it, or once the value is complete.

What a reader accepts follows the core schema where types meet: text accepts any scalar;
unsigned integers accept plain decimal, hex, octal and binary scalars; an optional value is
absent for an empty or null plain scalar; a sequence or a record may be given as an empty plain
scalar; and record fields not listed are skipped.
-/
namespace ComponentSync.Yaml

open Schema

/-- Where a value sits in a document, as errors name it. -/
inductive Path
  | root
  | index (parent : Path) (i : Nat)
  | key (parent : Path) (name : String)
  | alias (parent : Path)
  | unknown (parent : Path)
  deriving Repr, Inhabited

/-- The path as errors write it: `.` for the whole document, keys joined by `.`, indices in
brackets, `?` for a key that is not a scalar. -/
def Path.render : Path → String
  | .root => "."
  | .index p i => p.render ++ "[" ++ toString i ++ "]"
  | .key p k => (match p with
    | .root => ""
    | _ => p.render ++ ".") ++ k
  | .alias p => p.render
  | .unknown p => (match p with
    | .root => ""
    | _ => p.render ++ ".") ++ "?"

/-- Why a document could not be read as the expected value. -/
inductive DecodeError
  | malformed (e : SyntaxError)
  | unknownAnchor (at_ : Mark)
  /-- A value of the wrong shape, with where it starts and its path once known. -/
  | shape (text : String) (place : Option (Mark × Path))
  | endOfStream
  | moreThanOneDocument
  deriving Inhabited

/-- Where a position is named in a message, if anywhere. -/
def placeText (m : Mark) : String :=
  if m.isPlaced then " at " ++ m.describe else ""

def DecodeError.message : DecodeError → String
  | .malformed e => e.message
  | .unknownAnchor m => "unknown anchor" ++ placeText m
  | .shape text none => text
  | .shape text (some (m, path)) =>
    let shown := path.render
    (if shown == "." then "" else shown ++ ": ") ++ text ++ placeText m
  | .endOfStream => "EOF while parsing a value"
  | .moreThanOneDocument =>
    "deserializing from YAML containing more than one document is not supported"

/-- Gives a failure that has no place yet the place of the value being read. -/
def DecodeError.placed (m : Mark) (p : Path) : DecodeError → DecodeError
  | .shape text none => .shape text (some (m, p))
  | e => e

/-- A failure without a place, to be given one by the value that contains it. -/
def complaint (text : String) : DecodeError :=
  .shape text none

/-- What stops reading when the events run out: the error that ended them, or the end. -/
def Document.failure (d : Document) : DecodeError :=
  match d.error with
  | some (.malformed e) => .malformed e
  | some (.unknownAnchor m) => .unknownAnchor m
  | none => .endOfStream

def Document.peek (d : Document) (pos : Nat) : Except DecodeError (Item × Mark) :=
  match d.items[pos]? with
  | some im => .ok im
  | none => .error d.failure

/-- The complaint about a node that is not of the expected kind. -/
def Item.mismatch (item : Item) (expected : String) : DecodeError :=
  match item with
  | .scalar tag text style =>
    match scalarValue tag text style with
    | .ok found => complaint (invalidType yamlWording found expected)
    | .error m => complaint (invalidValue yamlWording (.str m.text) m.expected)
  | .sequenceStart _ => complaint (invalidType yamlWording .seq expected)
  | .mappingStart _ => complaint (invalidType yamlWording .map expected)
  | _ => .endOfStream

/-- Reads a value from the node at a position, returning the position after the node. -/
abbrev Decoder (α : Type) := Document → Path → Nat → Except DecodeError (α × Nat)

/-- A reader of a node by its first event: the event, where it starts, the document, the path,
and the position after the event. -/
abbrev NodeReader (α : Type) := Item → Mark → Document → Path → Nat → Except DecodeError (α × Nat)

/-- Reads a node with `read`; an alias is read through the node it points at, under the same
path, and reading goes on after the alias. -/
def node {α : Type} (read : NodeReader α) : Decoder α := fun d path pos => do
  let (item, mark) ← d.peek pos
  match item with
  | .alias target =>
    let (targetItem, targetMark) ← d.peek target
    let (a, _) ← read targetItem targetMark d (.alias path) (target + 1)
    return (a, pos + 1)
  | _ => read item mark d path (pos + 1)

def Decoder.text (expected : String) : Decoder String :=
  node fun item mark _ path next =>
    match item with
    | .scalar _ t _ => .ok (t, next)
    | _ => .error ((item.mismatch expected).placed mark path)

/-- Reads a scalar's text and converts it, a failed conversion complaining at the scalar. -/
def Decoder.textWith {α : Type} (expected : String) (convert : String → Except String α) :
    Decoder α :=
  node fun item mark _ path next =>
    match item with
    | .scalar _ t _ =>
      match convert t with
      | .ok a => .ok (a, next)
      | .error e => .error ((complaint e).placed mark path)
    | _ => .error ((item.mismatch expected).placed mark path)

/-- Whether a scalar may hold a value of the core type `tag`: a plain scalar always, a literal
block scalar when it carries exactly that tag. -/
def holdsTagged (tag : String) : Option String → ScalarStyle → Bool
  | _, .plain => true
  | some t, .literal => t == tag
  | _, _ => false

/-- Reads an unsigned integer no larger than `max`, named `name` in complaints. Integers are
held by plain scalars and by literal block scalars tagged as integers. -/
def Decoder.unsigned (max : Nat) (name : String) : Decoder Nat :=
  node fun item mark _ path next =>
    let fail (e : DecodeError) : Except DecodeError (Nat × Nat) := .error (e.placed mark path)
    match item with
    | .scalar tag t style =>
      if !holdsTagged intTag tag style then fail (item.mismatch name) else
      match unsignedOfText u64Max t with
      | some n =>
        if n ≤ max then .ok (n, next)
        else fail (complaint (invalidValue yamlWording (.unsigned n) name))
      | none => fail (item.mismatch name)
    | _ => fail (item.mismatch name)

/-- Whether a node gives an optional value: anything but an empty or null plain scalar. A
null-tagged scalar must hold a null text. -/
def Item.present (item : Item) : Except DecodeError Bool :=
  match item with
  | .scalar tag t style =>
    if style != .plain then .ok true
    else match tag with
      | some tg =>
        if tg == nullTag then
          if isNullText t then .ok false
          else .error (complaint (invalidValue yamlWording (.str t) "null"))
        else .ok true
      | none => .ok (!t.isEmpty && !isNullText t)
  | .void => .ok false
  | _ => .ok true

def Decoder.optional {α : Type} (dec : Decoder α) : Decoder (Option α) := fun d path pos => do
  let (item, _) ← d.peek pos
  match item with
  | .alias target =>
    let (targetItem, _) ← d.peek target
    if ← targetItem.present then
      let (a, _) ← dec d (.alias path) target
      return (some a, pos + 1)
    else return (none, pos + 1)
  | _ =>
    if ← item.present then
      let (a, next) ← dec d path pos
      return (some a, next)
    else return (none, pos + 1)

/-- Whether a node stands for an empty collection: an empty plain scalar or an empty text. -/
def Item.isEmptyNode : Item → Bool
  | .scalar _ t .plain => t.isEmpty
  | .void => true
  | _ => false

def skipNode (d : Document) (pos : Nat) : Except DecodeError Nat := do
  let mut pos := pos
  let mut depth : Nat := 0
  for _ in [0:d.items.size + 1] do
    let (item, _) ← d.peek pos
    pos := pos + 1
    match item with
    | .sequenceStart _ | .mappingStart _ => depth := depth + 1
    | .sequenceEnd | .mappingEnd => depth := depth - 1
    | _ => pure ()
    if depth == 0 then break
  return pos

/-- Reads at most `fuel` entries of a sequence from `pos`, after the entries `acc`, up to its
end. Returns the entries and the position of the end. -/
def readElementsFrom {α : Type} (elem : Decoder α) (d : Document) (path : Path) :
    Nat → Array α → Nat → Except DecodeError (Array α × Nat)
  | 0, acc, pos => pure (acc, pos)
  | fuel + 1, acc, pos => do
    let (item, _) ← d.peek pos
    match item with
    | .sequenceEnd | .void => pure (acc, pos)
    | _ =>
      let (a, next) ← elem d (.index path acc.size) pos
      readElementsFrom elem d path fuel (acc.push a) next

/-- Reads the entries of a sequence from `pos` up to and past its end. -/
def readElements {α : Type} (elem : Decoder α) (d : Document) (path : Path) (pos : Nat) :
    Except DecodeError (List α × Nat) := do
  let (acc, pos) ← readElementsFrom elem d path (d.items.size + 1) #[] pos
  let _ ← d.peek pos
  return (acc.toList, pos + 1)

def Decoder.sequence {α : Type} (elem : Decoder α) : Decoder (List α) :=
  node fun item mark d path next =>
    match item with
    | .sequenceStart _ => (readElements elem d path next).mapError (·.placed mark path)
    | _ =>
      if item.isEmptyNode then .ok ([], next)
      else .error ((item.mismatch "a sequence").placed mark path)

/-- A field of a record: its name and how its value changes the record being built. -/
structure RecordField (σ : Type) where
  name : String
  read : Decoder (σ → σ)

/-- A field whose value is read by `dec` and stored by `store`. -/
def RecordField.of {σ α : Type} (name : String) (dec : Decoder α) (store : α → σ → σ) : RecordField σ :=
  ⟨name, fun d path pos => (dec d path pos).map fun (a, next) => (store a, next)⟩

/-- Reads at most `fuel` entries of a mapping as record fields, from `pos` up to its end, into
`record`, whose fields `seen` are given already. Returns the record, the names of the fields
given, and the position of the mapping's end. -/
def readEntriesFrom {σ : Type} (fields : List (RecordField σ)) (d : Document) (path : Path) :
    Nat → σ → List String → Nat → Except DecodeError (σ × List String × Nat)
  | 0, record, seen, pos => pure (record, seen, pos)
  | fuel + 1, record, seen, pos => do
    let (item, _) ← d.peek pos
    match item with
    | .mappingEnd | .void => pure (record, seen, pos)
    | _ =>
      let valuePath := match item with
        | .scalar _ k _ => Path.key path k
        | _ => Path.unknown path
      let (name, afterKey) ← Decoder.text "field identifier" d path pos
      match fields.find? (·.name == name) with
      | some f =>
        if seen.contains f.name then throw (complaint (duplicateField f.name))
        let (store, next) ← f.read d valuePath afterKey
        readEntriesFrom fields d path fuel (store record) (f.name :: seen) next
      | none =>
        let next ← skipNode d afterKey
        readEntriesFrom fields d path fuel record seen next

/-- Reads the entries of a mapping as record fields, from `pos` up to its end. Returns the
record, the names of the fields given, and the position of the mapping's end. -/
def readEntries {σ : Type} (fields : List (RecordField σ)) (init : σ) (d : Document) (path : Path)
    (pos : Nat) : Except DecodeError (σ × List String × Nat) :=
  readEntriesFrom fields d path (d.items.size + 1) init [] pos

/-- Reads a record named `name` from a mapping, then checks it with `finish`, which sees the
names of the fields given and may complain. -/
def Decoder.record {σ α : Type} (name : String) (fields : List (RecordField σ)) (init : σ)
    (finish : σ → List String → Except String α) : Decoder α :=
  node fun item mark d path next =>
    let place {β : Type} (r : Except DecodeError β) : Except DecodeError β :=
      r.mapError (·.placed mark path)
    match item with
    | .mappingStart _ => place do
      let (record, seen, pos) ← readEntries fields init d path next
      let a ← (finish record seen).mapError complaint
      let _ ← d.peek pos
      return (a, pos + 1)
    | _ =>
      if item.isEmptyNode then place ((finish init []).mapError complaint |>.map (·, next))
      else .error ((item.mismatch ("struct " ++ name)).placed mark path)

/-- The names of a list of choices as complaints list them: one, two joined by `or`, or
`one of` and all of them. -/
def oneOf (names : List String) : String :=
  let quote (n : String) : String := "`" ++ n ++ "`"
  match names with
  | [a] => quote a
  | [a, b] => quote a ++ " or " ++ quote b
  | _ => "one of " ++ ", ".intercalate (names.map quote)

/-- The complaint about a choice that is not among `names`. -/
def unknownVariant (given : String) (names : List String) : String :=
  if names.isEmpty then "unknown variant `" ++ given ++ "`, there are no variants"
  else "unknown variant `" ++ given ++ "`, expected " ++ oneOf names

/-- The choice a local tag (`!name`) names: the text after the `!`, or `!` itself. -/
def localTagChoice (tag : Option String) : Option String :=
  tag.bind fun t =>
    if t.startsWith "!" then some (if t == "!" then t else String.ofList (t.toList.drop 1))
    else none

/-- Reads one of the choices `names`, none of which holds a value: the text of an untagged
scalar, or the name given by a local tag (`!name`). A tagged node must then hold nothing but a
plain null; a tag naming no choice is a complaint about the value that contains the node. -/
def Decoder.choice (names : List String) : Decoder String :=
  node fun item mark _ path next =>
    let fail (e : DecodeError) : Except DecodeError (String × Nat) := .error (e.placed mark path)
    let pick (given : String) : Except DecodeError (String × Nat) :=
      if names.contains given then .ok (given, next) else fail (complaint (unknownVariant given names))
    let tagged (given : String) (content : Except DecodeError Unit) :
        Except DecodeError (String × Nat) :=
      if !names.contains given then .error (complaint (unknownVariant given names))
      else match content with
        | .ok () => .ok (given, next)
        | .error e => fail e
    match item with
    | .scalar tag t style =>
      match localTagChoice tag with
      | some given =>
        tagged given
          (if style == .plain && (t.isEmpty || isNullText t) then .ok ()
          else .error (complaint (invalidValue yamlWording (.str t) "null")))
      | none => pick t
    | .mappingStart tag =>
      match localTagChoice tag with
      | some given => tagged given (.error (complaint (invalidType yamlWording .map "unit")))
      | none => fail (complaint (invalidType yamlWording .map "a YAML tag starting with '!'"))
    | .sequenceStart tag =>
      match localTagChoice tag with
      | some given => tagged given (.error (complaint (invalidType yamlWording .seq "unit")))
      | none => fail (complaint (invalidType yamlWording .seq "a YAML tag starting with '!'"))
    | _ => .error .endOfStream

/-- Reads the first document of a text with `dec`. An error of the text that `dec` did not
reach still fails the reading, and so does a second document. -/
def Decoder.runOn {α : Type} (dec : Decoder α) (text : String) : Except DecodeError α :=
  let (doc, more) := Document.load text
  match dec doc .root 0 with
  | .error e => .error e
  | .ok (a, _) =>
    if doc.error.isSome then .error doc.failure
    else if more then .error .moreThanOneDocument
    else .ok a

end ComponentSync.Yaml
