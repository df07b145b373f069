import ComponentSync.Yaml.Token.Scalar
import ComponentSync.Yaml.Token.Property
/-!
The token stream of a YAML text. Tokens are found on demand: the next token is known once the
queue holds one that no possible key may still claim a place before. Block collections are
opened and closed by indentation, so their start and end tokens are made here too.

A text may hold a tab, a carriage return, a line feed, and printable characters: ASCII from
space to `~`, the next-line character, and the rest of Unicode less surrogates and the two
non-characters `U+FFFE` and `U+FFFF`. Any other character makes the whole text unreadable
before its first token, at its byte offset. A byte order mark at the very start is dropped.
-/
namespace ComponentSync.Yaml

/-- Whether a character may stand in a YAML text. -/
def isPrintable (c : Char) : Bool :=
  let n := c.toNat
  n == 0x09 || n == 0x0A || n == 0x0D || (0x20 ≤ n && n ≤ 0x7E) || n == 0x85 ||
    (0xA0 ≤ n && n ≤ 0xD7FF) || (0xE000 ≤ n && n ≤ 0xFFFD) || 0x10000 ≤ n

/-- The byte offset of the first character that may not stand in a text, counted from
`offset`. -/
def firstUnprintable (offset : Nat) : List Char → Option Nat
  | [] => none
  | c :: rest => if isPrintable c then firstUnprintable (offset + c.utf8Size) rest else some offset

/-- The state before the first token of a text, or the failure of a text that holds a
character no YAML text may hold. -/
def Cursor.start (text : String) : Except SyntaxError Cursor :=
  let (chars, offset) := match text.toList with
    | '\uFEFF' :: rest => (rest, 3)
    | cs => (cs, 0)
  match firstUnprintable offset chars with
  | some at_ => .error ⟨"control characters are not allowed", Mark.origin, at_, none, Mark.origin⟩
  | none =>
    .ok
      { text := chars.toArray, mark := Mark.origin, offset := 0, queue := [], taken := 0
        indent := -1, indents := [], keyAllowed := false, keys := #[], flowLevel := 0
        started := false }

/-- Moves past at most `fuel` blanks of a line. Tabs count as blanks except where they could be
taken for indentation: at the start of a block line, and after `-`, `?` or `:` there. -/
def skipSpaces : Nat → ScanM Unit
  | 0 => pure ()
  | fuel + 1 => do
    let s ← get
    let c := s.ahead 0
    if c == ' ' || ((s.flowLevel != 0 || !s.keyAllowed) && c == '\t') then
      skip
      skipSpaces fuel

/-- Moves past the rest of a comment, up to the end of its line. -/
def skipComment : Nat → ScanM Unit
  | 0 => pure ()
  | fuel + 1 => do
    if isBreakOrEnd (← peekAt 0) then return
    skip
    skipComment fuel

/-- Moves past at most `lines` lines of blanks and comments, each scanned with `fuel` steps; in
block context a line break allows a key again. -/
def skipGaps (fuel : Nat) : Nat → ScanM Unit
  | 0 => pure ()
  | lines + 1 => do
    let s ← get
    if s.mark.column == 0 && s.ahead 0 == '\uFEFF' then skip
    skipSpaces fuel
    if (← peekAt 0) == '#' then skipComment fuel
    if isBreak (← peekAt 0) then
      skipLine
      if (← get).flowLevel == 0 then modify fun s => { s with keyAllowed := true }
      skipGaps fuel lines

/-- Moves past blanks, comments and line breaks up to the next token. -/
def skipToToken : ScanM Unit := do
  let s0 ← get
  skipGaps s0.fuel s0.fuel

def forbidKey : ScanM Unit :=
  modify fun s => { s with keyAllowed := false }

def allowKey : ScanM Unit :=
  modify fun s => { s with keyAllowed := true }

def push (t : Token) : ScanM Unit :=
  modify fun s => { s with queue := s.queue ++ [t] }

/-- Emits a token for the `width` indicator characters ahead. -/
def emitIndicator (kind : TokenKind) (width : Nat) : ScanM Unit := do
  let start := (← get).mark
  skipChars width
  emit kind start (← get).mark

def fetchStreamStart : ScanM Unit :=
  modify fun s =>
    { s with
      indent := -1
      keys := s.keys.push ⟨false, false, 0, Mark.origin, 0⟩
      keyAllowed := true
      started := true
      queue := s.queue ++ [⟨.streamStart, s.mark, s.mark⟩] }

/-- The end of the stream, which closes every open block collection. -/
def fetchStreamEnd : ScanM Unit := do
  modify fun s =>
    if s.mark.column != 0 then { s with mark := ⟨s.mark.index, s.mark.line + 1, 0⟩ } else s
  unrollIndent (-1)
  removeKey
  forbidKey
  let m := (← get).mark
  emit .streamEnd m m

/-- A document marker or directive, which closes every open block collection. -/
def fetchDocumentLevel (scan : ScanM Unit) : ScanM Unit := do
  unrollIndent (-1)
  removeKey
  forbidKey
  scan

/-- An entry of a block sequence, which may open one. -/
def fetchBlockEntry : ScanM Unit := do
  let s ← get
  if s.flowLevel == 0 then
    if !s.keyAllowed then failHere "block sequence entries are not allowed in this context"
    rollIndent s.mark.column none .blockSequenceStart s.mark
  removeKey
  allowKey
  emitIndicator .blockEntry 1

def fetchKey : ScanM Unit := do
  let s ← get
  if s.flowLevel == 0 then
    if !s.keyAllowed then failHere "mapping keys are not allowed in this context"
    rollIndent s.mark.column none .blockMappingStart s.mark
  removeKey
  modify fun s => { s with keyAllowed := s.flowLevel == 0 }
  emitIndicator .key 1

/-- A `:`. When a possible key stands before it, that key's token (and, in block context, the
start of a mapping) is put back in the queue where the key began. -/
def fetchValue : ScanM Unit := do
  let s ← get
  let key := s.keys.back?.getD default
  if key.possible then
    let i := key.tokenNumber - s.taken
    let keyToken : Token := ⟨.key, key.mark, key.mark⟩
    set { s with queue := s.queue.take i ++ keyToken :: s.queue.drop i }
    rollIndent key.mark.column (some key.tokenNumber) .blockMappingStart key.mark
    modify fun s => { s with keys := s.keys.pop.push { key with possible := false } }
    forbidKey
  else
    if s.flowLevel == 0 then
      if !s.keyAllowed then failHere "mapping values are not allowed in this context"
      rollIndent s.mark.column none .blockMappingStart s.mark
    modify fun s => { s with keyAllowed := s.flowLevel == 0 }
  emitIndicator .value 1

/-- A node that may be a key without `?`: a scalar, a flow collection, or a node property. -/
def fetchKeyable (scan : ScanM Token) : ScanM Unit := do
  saveKey
  forbidKey
  push (← scan)

/-- Whether a character may start a plain scalar, given the one after it. -/
def startsPlain (flow : Bool) (c next : Char) : Bool :=
  !(isBlankOrEnd c || "-?:,[]\x7b\x7d#&*!|>'\"%@`".contains c) ||
    (c == '-' && !isBlank next) ||
    (!flow && (c == '?' || c == ':') && !isBlankOrEnd next)

/-- Queues the token that starts at the cursor, chosen by its first character. -/
def fetchToken : ScanM Unit := do
  let s ← get
  let c := s.ahead 0
  let next := s.ahead 1
  let flow := s.flowLevel != 0
  let lineStart := s.mark.column == 0
  if c == endChar then fetchStreamEnd
  else if lineStart && c == '%' then fetchDocumentLevel (do push (← scanDirective))
  else if s.atDocumentMarker && c == '-' then fetchDocumentLevel (emitIndicator .documentStart 3)
  else if s.atDocumentMarker && c == '.' then fetchDocumentLevel (emitIndicator .documentEnd 3)
  else if c == '[' || c == '\x7b' then
    saveKey
    enterFlow
    allowKey
    emitIndicator (if c == '[' then .flowSequenceStart else .flowMappingStart) 1
  else if c == ']' || c == '\x7d' then
    removeKey
    leaveFlow
    forbidKey
    emitIndicator (if c == ']' then .flowSequenceEnd else .flowMappingEnd) 1
  else if c == ',' then
    removeKey
    allowKey
    emitIndicator .flowEntry 1
  else if c == '-' && isBlankOrEnd next then fetchBlockEntry
  else if c == '?' && (flow || isBlankOrEnd next) then fetchKey
  else if c == ':' && (flow || isBlankOrEnd next) then fetchValue
  else if c == '*' then fetchKeyable (scanAnchor true)
  else if c == '&' then fetchKeyable (scanAnchor false)
  else if c == '!' then fetchKeyable scanTag
  else if (c == '|' || c == '>') && !flow then
    removeKey
    allowKey
    push (← scanBlockScalar (c == '|'))
  else if c == '\'' then fetchKeyable (scanQuoted true)
  else if c == '"' then fetchKeyable (scanQuoted false)
  else if startsPlain flow c next then fetchKeyable scanPlain
  else
    failWithin "while scanning for the next token" s.mark "found character that cannot start any token"

/-- Finds the next token and queues it, with any block collection ends it implies. -/
def fetchNextToken : ScanM Unit := do
  if !(← get).started then
    fetchStreamStart
    return
  skipToToken
  dropStaleKeys
  unrollIndent (← get).mark.column
  fetchToken

/-- Whether the queue lacks a token that is sure to come next: it is empty, or a possible key
may still put a token before its head. -/
def needsMore : ScanM Bool := do
  if (← get).queue.isEmpty then return true
  dropStaleKeys
  let s ← get
  return s.keys.any fun k => k.possible && k.tokenNumber == s.taken

/-- Finds tokens, at most `fuel` times, until the next one is sure. -/
def fetchUntilSure : Nat → ScanM Unit
  | 0 => pure ()
  | fuel + 1 => do
    if !(← needsMore) then return
    fetchNextToken
    fetchUntilSure fuel

def fetchMore : ScanM Unit := do
  fetchUntilSure (2 * (← get).text.size + 16)

def peekToken : ScanM Token := do
  fetchMore
  let s ← get
  return s.queue.headD ⟨.streamEnd, s.mark, s.mark⟩

def skipToken : ScanM Unit :=
  modify fun s => { s with queue := s.queue.drop 1, taken := s.taken + 1 }

end ComponentSync.Yaml
