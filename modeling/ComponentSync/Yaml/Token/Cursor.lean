import ComponentSync.Yaml.Token
/-!
The state of tokenizing a YAML text: the position reached, the tokens found but not yet taken,
the stack of block indentations, the flow nesting depth, and the places where a key written
without `?` may have begun.

A key without `?` is only known to be one when its `:` shows up, so each nesting level keeps
the one place where such a key may start. The `:` then puts a key token (and, in block context,
the start of a mapping) back in the queue at that place. A possible key dies when its line ends
or once the text read since it began passes 1024 bytes; a key that had to be one (it stood at the indentation of its block)
then makes the text ill-formed.
-/
namespace ComponentSync.Yaml

/-- A place where a key written without `?` may begin. -/
structure SimpleKey where
  possible : Bool
  /-- Whether the text is ill-formed unless a `:` follows. -/
  required : Bool
  /-- The number of the token the key would start with, counted over all tokens. -/
  tokenNumber : Nat
  mark : Mark
  /-- The bytes of the text before the key. -/
  offset : Nat
  deriving Repr, Inhabited

structure Cursor where
  text : Array Char
  mark : Mark
  /-- The bytes of the text before the current position. -/
  offset : Nat
  /-- Tokens found and not yet taken. -/
  queue : List Token
  /-- How many tokens have been taken. -/
  taken : Nat
  /-- The column of the innermost block collection; `-1` outside any. -/
  indent : Int
  indents : List Int
  /-- Whether a key without `?` may start at the current position. -/
  keyAllowed : Bool
  /-- One possible key per flow level, the innermost last. -/
  keys : Array SimpleKey
  flowLevel : Nat
  started : Bool
  deriving Inhabited

abbrev ScanM := StateT Cursor (Except SyntaxError)

def isBreak (c : Char) : Bool :=
  c == '\r' || c == '\n' || c == '\x85' || c == '\u2028' || c == '\u2029'

/-- Whether a character is a space or a tab. -/
def isBlank (c : Char) : Bool := c == ' ' || c == '\t'

/-- The character that stands past the end of the text. -/
def endChar : Char := '\x00'

/-- Whether a character ends a line or the text. -/
def isBreakOrEnd (c : Char) : Bool := isBreak c || c == endChar

/-- Whether a character is blank, ends a line, or ends the text. -/
def isBlankOrEnd (c : Char) : Bool := isBlank c || isBreakOrEnd c

/-- Whether a character may stand in an anchor name or a tag handle: an ASCII letter or digit,
`_` or `-`. -/
def isWordChar (c : Char) : Bool :=
  ('0' ≤ c && c ≤ '9') || ('a' ≤ c && c ≤ 'z') || ('A' ≤ c && c ≤ 'Z') || c == '_' || c == '-'

def hexValue (c : Char) : Option Nat :=
  if '0' ≤ c && c ≤ '9' then some (c.toNat - '0'.toNat)
  else if 'a' ≤ c && c ≤ 'f' then some (c.toNat - 'a'.toNat + 10)
  else if 'A' ≤ c && c ≤ 'F' then some (c.toNat - 'A'.toNat + 10)
  else none

/-- The character `k` places ahead; past the end of the text, `endChar`. -/
def Cursor.ahead (s : Cursor) (k : Nat) : Char :=
  s.text.getD (s.mark.index + k) endChar

/-- A bound on the steps of any loop over the rest of the text. -/
def Cursor.fuel (s : Cursor) : Nat := s.text.size + 2

def peekAt (k : Nat) : ScanM Char := do
  return (← get).ahead k

/-- Whether three characters ahead open a document marker `---` or `...` followed by a blank or
the end of a line, at the start of a line. -/
def Cursor.atDocumentMarker (s : Cursor) : Bool :=
  s.mark.column == 0 &&
    ((s.ahead 0 == '-' && s.ahead 1 == '-' && s.ahead 2 == '-') ||
      (s.ahead 0 == '.' && s.ahead 1 == '.' && s.ahead 2 == '.')) &&
    isBlankOrEnd (s.ahead 3)

def skip : ScanM Unit :=
  modify fun s =>
    { s with
      mark := ⟨s.mark.index + 1, s.mark.line, s.mark.column + 1⟩
      offset := s.offset + (s.ahead 0).utf8Size }

def skipChars : Nat → ScanM Unit
  | 0 => pure ()
  | n + 1 => do
    skip
    skipChars n

/-- Moves past a line break; a carriage return and line feed count as one break. -/
def skipLine : ScanM Unit :=
  modify fun s =>
    if s.ahead 0 == '\r' && s.ahead 1 == '\n' then
      { s with
        mark := ⟨s.mark.index + 2, s.mark.line + 1, 0⟩
        offset := s.offset + 2 }
    else if isBreak (s.ahead 0) then
      { s with
        mark := ⟨s.mark.index + 1, s.mark.line + 1, 0⟩
        offset := s.offset + (s.ahead 0).utf8Size }
    else s

/-- Moves past one character and appends it to `acc`. -/
def readChar (acc : String) : ScanM String := do
  let c ← peekAt 0
  skip
  return acc.push c

/-- Moves past a line break and appends it to `acc`: a line feed for a carriage return, a line
feed or a next-line character, and the separator itself for a line or paragraph separator. -/
def readBreak (acc : String) : ScanM String := do
  let c ← peekAt 0
  if c == '\r' || c == '\n' || c == '\x85' then
    skipLine
    return acc.push '\n'
  else if c == '\u2028' || c == '\u2029' then
    skipLine
    return acc.push c
  else return acc

/-- Fails at the current position, while reading the construct that began at `contextMark`. -/
def failWithin {α : Type} (context : String) (contextMark : Mark) (problem : String) : ScanM α := do
  throw (SyntaxError.within context contextMark problem (← get).mark)

def failHere {α : Type} (problem : String) : ScanM α := do
  throw (SyntaxError.bare problem (← get).mark)

def emit (kind : TokenKind) (start stop : Mark) : ScanM Unit :=
  modify fun s => { s with queue := s.queue ++ [⟨kind, start, stop⟩] }

/-- The failure of a key that had to be one but has no `:`. -/
def missingColon (key : SimpleKey) (at_ : Mark) : SyntaxError :=
  SyntaxError.within "while scanning a simple key" key.mark "could not find expected ':'" at_

/-- Drops the possible keys that can no longer be keys: those on an earlier line, and those
more than 1024 bytes back. -/
def dropStaleKeys : ScanM Unit := do
  let s ← get
  let keys ← s.keys.mapM fun (k : SimpleKey) =>
    if k.possible && (k.mark.line < s.mark.line || k.offset + 1024 < s.offset) then
      if k.required then (throw (missingColon k s.mark) : ScanM SimpleKey)
      else pure { k with possible := false }
    else pure k
  set { s with keys }

/-- Gives up the possible key of the current flow level. -/
def removeKey : ScanM Unit := do
  let s ← get
  match s.keys.back? with
  | some k =>
    if k.possible && k.required then throw (missingColon k s.mark)
    set { s with keys := s.keys.pop.push { k with possible := false } }
  | none => pure ()

/-- Records that a key without `?` may start at the current position, if one may. -/
def saveKey : ScanM Unit := do
  let s ← get
  if s.keyAllowed then
    let required := s.flowLevel == 0 && s.indent == (s.mark.column : Int)
    let key : SimpleKey := ⟨true, required, s.taken + s.queue.length, s.mark, s.offset⟩
    removeKey
    modify fun s => { s with keys := s.keys.pop.push key }

/-- Opens a flow level, with no possible key yet. -/
def enterFlow : ScanM Unit :=
  modify fun s =>
    { s with keys := s.keys.push ⟨false, false, 0, Mark.origin, 0⟩, flowLevel := s.flowLevel + 1 }

def leaveFlow : ScanM Unit :=
  modify fun s =>
    if s.flowLevel == 0 then s else { s with flowLevel := s.flowLevel - 1, keys := s.keys.pop }

/-- Closes the block collections indented deeper than `column`, at most `fuel` of them, each
with a block end at the current position. -/
def closeBlocks (column : Int) : Nat → ScanM Unit
  | 0 => pure ()
  | fuel + 1 => do
    let s ← get
    match s.indents with
    | outer :: rest =>
      if s.indent > column then
        let queue := s.queue ++ [⟨.blockEnd, s.mark, s.mark⟩]
        set { s with queue, indent := outer, indents := rest }
        closeBlocks column fuel
    | [] => pure ()

/-- In block context, closes every block collection indented deeper than `column`. -/
def unrollIndent (column : Int) : ScanM Unit := do
  if (← get).flowLevel != 0 then return
  closeBlocks column ((← get).indents.length + 1)

/-- In block context, opens a block collection at `column` if it lies deeper than the current
one. Its token goes at the end of the queue, or before the token numbered `number`. -/
def rollIndent (column : Int) (number : Option Nat) (kind : TokenKind) (mark : Mark) :
    ScanM Unit := do
  let s ← get
  if s.flowLevel == 0 && s.indent < column then
    let token : Token := ⟨kind, mark, mark⟩
    let queue := match number with
      | none => s.queue ++ [token]
      | some n =>
        let i := n - s.taken
        s.queue.take i ++ token :: s.queue.drop i
    set { s with indents := s.indent :: s.indents, indent := column, queue }

end ComponentSync.Yaml
