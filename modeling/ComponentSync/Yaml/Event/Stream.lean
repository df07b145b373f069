import ComponentSync.Yaml.Token.Stream
import ComponentSync.Yaml.Token
/-!
The events of a YAML text, read from its tokens by the grammar of YAML 1.1: a stream of
documents, each of block or flow nodes, with empty scalars where a key, a value or an entry is
left out. Reading stops at the first error; the events before it stay valid.
-/
/-!
The events of a YAML text: the start and end of the stream, of each document, sequence and
mapping, each scalar, and each alias. Nodes carry their anchor and their tag, resolved to its
full form through the document's tag directives.
-/
namespace ComponentSync.Yaml

inductive EventKind
  | streamStart
  | streamEnd
  | documentStart (implicit : Bool)
  | documentEnd (implicit : Bool)
  | alias (name : String)
  | scalar (anchor tag : Option String) (text : String) (style : ScalarStyle)
  | sequenceStart (anchor tag : Option String) (flow : Bool)
  | sequenceEnd
  | mappingStart (anchor tag : Option String) (flow : Bool)
  | mappingEnd
  deriving Repr, Inhabited

/-- An event and the stretch of text it covers. -/
structure Event where
  kind : EventKind
  start : Mark
  stop : Mark
  deriving Repr, Inhabited

end ComponentSync.Yaml

namespace ComponentSync.Yaml

inductive Expect
  | streamStart
  | implicitDocumentStart
  | documentStart
  | documentContent
  | documentEnd
  | blockNode
  | blockNodeOrIndentlessSequence
  | flowNode
  | blockSequenceFirstEntry
  | blockSequenceEntry
  | indentlessSequenceEntry
  | blockMappingFirstKey
  | blockMappingKey
  | blockMappingValue
  | flowSequenceFirstEntry
  | flowSequenceEntry
  | flowSequenceEntryMappingKey
  | flowSequenceEntryMappingValue
  | flowSequenceEntryMappingEnd
  | flowMappingFirstKey
  | flowMappingKey
  | flowMappingValue
  | flowMappingEmptyValue
  | finished
  deriving DecidableEq, Repr, Inhabited

/-- The state of reading events: the tokens, what is expected now, what is expected after each
open node, where each open collection began, and the tag handles of the current document. -/
structure Reader where
  cursor : Cursor
  expect : Expect
  resume : List Expect
  marks : List Mark
  handles : List (String × String)
  deriving Inhabited

abbrev ReadM := StateT Reader (Except SyntaxError)

def onTokens {α : Type} (step : ScanM α) : ReadM α := do
  let r ← get
  let (a, cursor) ← (step.run r.cursor : Except SyntaxError (α × Cursor))
  set { r with cursor }
  return a

def token : ReadM Token := onTokens peekToken

def advance : ReadM Unit := onTokens skipToken

def expectNext (e : Expect) : ReadM Unit :=
  modify fun r => { r with expect := e }

/-- Remembers what to expect once the node about to be read is done. -/
def resumeWith (e : Expect) : ReadM Unit :=
  modify fun r => { r with resume := e :: r.resume }

/-- Goes back to what was expected before the node just read. -/
def resumeOuter : ReadM Unit :=
  modify fun r => match r.resume with
    | e :: rest => { r with expect := e, resume := rest }
    | [] => { r with expect := .finished }

def pushMark (m : Mark) : ReadM Unit :=
  modify fun r => { r with marks := m :: r.marks }

def popMark : ReadM Mark := do
  let r ← get
  match r.marks with
  | m :: rest =>
    set { r with marks := rest }
    return m
  | [] => return Mark.origin

def failAt {α : Type} (problem : String) (mark : Mark) : ReadM α :=
  throw (SyntaxError.bare problem mark)

/-- Fails at `mark`, while reading the construct that began at `contextMark`. -/
def failIn {α : Type} (context : String) (contextMark : Mark) (problem : String) (mark : Mark) :
    ReadM α :=
  throw (SyntaxError.within context contextMark problem mark)

def emptyScalar (mark : Mark) : Event :=
  ⟨.scalar none none "" .plain, mark, mark⟩

def defaultHandles : List (String × String) :=
  [("!", "!"), ("!!", "tag:yaml.org,2002:")]

/-- Reads at most `fuel` directives, recording the tag handles they declare. `sawVersion` tells
whether a `%YAML` directive came before; returns whether one was seen. -/
def readDirectivesFrom : Nat → Bool → ReadM Bool
  | 0, sawVersion => pure sawVersion
  | fuel + 1, sawVersion => do
    let t ← token
    match t.kind with
    | .versionDirective major minor =>
      if sawVersion then failAt "found duplicate %YAML directive" t.start
      if major != 1 || (minor != 1 && minor != 2) then
        failAt "found incompatible YAML document" t.start
      advance
      readDirectivesFrom fuel true
    | .tagDirective handle pre =>
      if (← get).handles.any (·.1 == handle) then failAt "found duplicate %TAG directive" t.start
      modify fun r => { r with handles := r.handles ++ [(handle, pre)] }
      advance
      readDirectivesFrom fuel sawVersion
    | _ => pure sawVersion

/-- Reads the directives before a document and records its tag handles. Returns whether a
`%YAML` directive was seen. -/
def readDirectives : ReadM Bool := do
  let r0 ← get
  let sawVersion ← readDirectivesFrom r0.cursor.fuel false
  modify fun r =>
    { r with handles := r.handles ++ defaultHandles.filter fun d => !r.handles.any (·.1 == d.1) }
  return sawVersion

def skipDocumentEnds : Nat → ReadM Unit
  | 0 => pure ()
  | fuel + 1 => do
    match (← token).kind with
    | .documentEnd =>
      advance
      skipDocumentEnds fuel
    | _ => pure ()

def readStreamStart : ReadM Event := do
  let t ← token
  match t.kind with
  | .streamStart =>
    expectNext .implicitDocumentStart
    advance
    return ⟨.streamStart, t.start, t.start⟩
  | _ => failAt "did not find expected <stream-start>" t.start

/-- The start of a document, explicit or not, or the end of the stream. -/
def readDocumentStart (implicit : Bool) : ReadM Event := do
  let r0 ← get
  if !implicit then skipDocumentEnds r0.cursor.fuel
  let t ← token
  let explicitOnly := match t.kind with
    | .versionDirective .. | .tagDirective .. | .documentStart | .streamEnd => true
    | _ => false
  if implicit && !explicitOnly then
    let _ ← readDirectives
    resumeWith .documentEnd
    expectNext .blockNode
    return ⟨.documentStart true, t.start, t.start⟩
  match t.kind with
  | .streamEnd =>
    expectNext .finished
    advance
    return ⟨.streamEnd, t.start, t.stop⟩
  | _ =>
    let start := t.start
    let _ ← readDirectives
    let t ← token
    match t.kind with
    | .documentStart =>
      resumeWith .documentEnd
      expectNext .documentContent
      advance
      return ⟨.documentStart false, start, t.stop⟩
    | _ => failAt "did not find expected <document start>" t.start

/-- The content of an explicit document, which may be left out. -/
def readDocumentContent (readNode : ReadM Event) : ReadM Event := do
  let t ← token
  match t.kind with
  | .versionDirective .. | .tagDirective .. | .documentStart | .documentEnd | .streamEnd =>
    resumeOuter
    return emptyScalar t.start
  | _ => readNode

/-- The end of a document, explicit (`...`) or not. -/
def readDocumentEnd : ReadM Event := do
  let t ← token
  let explicit := decide (t.kind = .documentEnd)
  if explicit then advance
  modify fun r => { r with handles := [] }
  expectNext .documentStart
  return ⟨.documentEnd !explicit, t.start, if explicit then t.stop else t.start⟩

/-- The full form of a tag written with a handle. -/
def resolveTag (handle suffix : String) (nodeStart tagMark : Mark) : ReadM String := do
  if handle.isEmpty then return suffix
  match (← get).handles.find? (·.1 == handle) with
  | some (_, pre) => return pre ++ suffix
  | none => failIn "while parsing a node" nodeStart "found undefined tag handle" tagMark

/-- Reads a node: an alias, or a scalar or collection with its properties. In a block mapping's
value, a sequence may start at the mapping's own indentation. -/
def readNode (block indentless : Bool) : ReadM Event := do
  let t ← token
  match t.kind with
  | .alias name =>
    resumeOuter
    advance
    return ⟨.alias name, t.start, t.stop⟩
  | _ =>
    let mut start := t.start
    let mut stop := t.start
    let mut anchor : Option String := none
    let mut tagged : Option (String × String × Mark) := none
    let mut t := t
    match t.kind with
    | .anchor name =>
      anchor := some name
      stop := t.stop
      advance
      t ← token
      match t.kind with
      | .tag handle suffix =>
        tagged := some (handle, suffix, t.start)
        stop := t.stop
        advance
        t ← token
      | _ => pure ()
    | .tag handle suffix =>
      tagged := some (handle, suffix, t.start)
      stop := t.stop
      advance
      t ← token
      match t.kind with
      | .anchor name =>
        anchor := some name
        stop := t.stop
        advance
        t ← token
      | _ => pure ()
    | _ => pure ()
    let tag ← match tagged with
      | some (handle, suffix, tagMark) => some <$> resolveTag handle suffix start tagMark
      | none => pure none
    match t.kind with
    | .blockEntry =>
      if indentless then
        expectNext .indentlessSequenceEntry
        return ⟨.sequenceStart anchor tag false, start, t.stop⟩
    | _ => pure ()
    match t.kind with
    | .scalar text style =>
      resumeOuter
      advance
      return ⟨.scalar anchor tag text style, start, t.stop⟩
    | .flowSequenceStart =>
      expectNext .flowSequenceFirstEntry
      return ⟨.sequenceStart anchor tag true, start, t.stop⟩
    | .flowMappingStart =>
      expectNext .flowMappingFirstKey
      return ⟨.mappingStart anchor tag true, start, t.stop⟩
    | .blockSequenceStart =>
      if block then
        expectNext .blockSequenceFirstEntry
        return ⟨.sequenceStart anchor tag false, start, t.stop⟩
    | .blockMappingStart =>
      if block then
        expectNext .blockMappingFirstKey
        return ⟨.mappingStart anchor tag false, start, t.stop⟩
    | _ => pure ()
    if anchor.isSome || tag.isSome then
      resumeOuter
      return ⟨.scalar anchor tag "" .plain, start, stop⟩
    failIn (if block then "while parsing a block node" else "while parsing a flow node") start
      "did not find expected node content" t.start

/-- An entry of a block sequence, or its end. -/
def readBlockSequenceEntry (first : Bool) : ReadM Event := do
  if first then
    pushMark (← token).start
    advance
  let t ← token
  match t.kind with
  | .blockEntry =>
    advance
    let n ← token
    match n.kind with
    | .blockEntry | .blockEnd =>
      expectNext .blockSequenceEntry
      return emptyScalar t.stop
    | _ =>
      resumeWith .blockSequenceEntry
      readNode true false
  | .blockEnd =>
    resumeOuter
    let _ ← popMark
    advance
    return ⟨.sequenceEnd, t.start, t.stop⟩
  | _ =>
    failIn "while parsing a block collection" (← popMark) "did not find expected '-' indicator"
      t.start

/-- An entry of a sequence written at its mapping's indentation, or its end. -/
def readIndentlessEntry : ReadM Event := do
  let t ← token
  match t.kind with
  | .blockEntry =>
    advance
    let n ← token
    match n.kind with
    | .blockEntry | .key | .value | .blockEnd =>
      expectNext .indentlessSequenceEntry
      return emptyScalar t.stop
    | _ =>
      resumeWith .indentlessSequenceEntry
      readNode true false
  | _ =>
    resumeOuter
    return ⟨.sequenceEnd, t.start, t.start⟩

/-- A key of a block mapping, or its end. -/
def readBlockMappingKey (first : Bool) : ReadM Event := do
  if first then
    pushMark (← token).start
    advance
  let t ← token
  match t.kind with
  | .key =>
    advance
    let n ← token
    match n.kind with
    | .key | .value | .blockEnd =>
      expectNext .blockMappingValue
      return emptyScalar t.stop
    | _ =>
      resumeWith .blockMappingValue
      readNode true true
  | .blockEnd =>
    resumeOuter
    let _ ← popMark
    advance
    return ⟨.mappingEnd, t.start, t.stop⟩
  | _ => failIn "while parsing a block mapping" (← popMark) "did not find expected key" t.start

/-- A value of a block mapping, which may be left out. -/
def readBlockMappingValue : ReadM Event := do
  let t ← token
  match t.kind with
  | .value =>
    advance
    let n ← token
    match n.kind with
    | .key | .value | .blockEnd =>
      expectNext .blockMappingKey
      return emptyScalar t.stop
    | _ =>
      resumeWith .blockMappingKey
      readNode true true
  | _ =>
    expectNext .blockMappingKey
    return emptyScalar t.start

/-- An entry of a flow sequence, or its end. A `key: value` entry is a mapping of one pair. -/
def readFlowSequenceEntry (first : Bool) : ReadM Event := do
  if first then
    pushMark (← token).start
    advance
  let mut t ← token
  let closes (t : Token) : Bool := match t.kind with
    | .flowSequenceEnd => true
    | _ => false
  if !closes t then
    if !first then
      match t.kind with
      | .flowEntry =>
        advance
        t ← token
      | _ =>
        failIn "while parsing a flow sequence" (← popMark) "did not find expected ',' or ']'"
          t.start
    match t.kind with
    | .key =>
      expectNext .flowSequenceEntryMappingKey
      advance
      return ⟨.mappingStart none none true, t.start, t.stop⟩
    | _ =>
      if !closes t then
        resumeWith .flowSequenceEntry
        return ← readNode false false
  resumeOuter
  let _ ← popMark
  advance
  return ⟨.sequenceEnd, t.start, t.stop⟩

/-- The key of a one-pair mapping in a flow sequence. -/
def readFlowPairKey : ReadM Event := do
  let t ← token
  match t.kind with
  | .value | .flowEntry | .flowSequenceEnd =>
    expectNext .flowSequenceEntryMappingValue
    return emptyScalar t.start
  | _ =>
    resumeWith .flowSequenceEntryMappingValue
    readNode false false

/-- The value of a one-pair mapping in a flow sequence. -/
def readFlowPairValue : ReadM Event := do
  let t ← token
  match t.kind with
  | .value =>
    advance
    let n ← token
    match n.kind with
    | .flowEntry | .flowSequenceEnd =>
      expectNext .flowSequenceEntryMappingEnd
      return emptyScalar n.start
    | _ =>
      resumeWith .flowSequenceEntryMappingEnd
      readNode false false
  | _ =>
    expectNext .flowSequenceEntryMappingEnd
    return emptyScalar t.start

/-- The end of a one-pair mapping in a flow sequence. -/
def readFlowPairEnd : ReadM Event := do
  let t ← token
  expectNext .flowSequenceEntry
  return ⟨.mappingEnd, t.start, t.start⟩

/-- A key of a flow mapping, or its end. -/
def readFlowMappingKey (first : Bool) : ReadM Event := do
  if first then
    pushMark (← token).start
    advance
  let mut t ← token
  let closes (t : Token) : Bool := match t.kind with
    | .flowMappingEnd => true
    | _ => false
  if !closes t then
    if !first then
      match t.kind with
      | .flowEntry =>
        advance
        t ← token
      | _ =>
        failIn "while parsing a flow mapping" (← popMark) "did not find expected ',' or '\x7d'"
          t.start
    match t.kind with
    | .key =>
      advance
      let n ← token
      match n.kind with
      | .value | .flowEntry | .flowMappingEnd =>
        expectNext .flowMappingValue
        return emptyScalar n.start
      | _ =>
        resumeWith .flowMappingValue
        return ← readNode false false
    | _ =>
      if !closes t then
        resumeWith .flowMappingEmptyValue
        return ← readNode false false
  resumeOuter
  let _ ← popMark
  advance
  return ⟨.mappingEnd, t.start, t.stop⟩

/-- A value of a flow mapping, which may be left out. -/
def readFlowMappingValue (empty : Bool) : ReadM Event := do
  let t ← token
  if empty then
    expectNext .flowMappingKey
    return emptyScalar t.start
  match t.kind with
  | .value =>
    advance
    let n ← token
    match n.kind with
    | .flowEntry | .flowMappingEnd =>
      expectNext .flowMappingKey
      return emptyScalar n.start
    | _ =>
      resumeWith .flowMappingKey
      readNode false false
  | _ =>
    expectNext .flowMappingKey
    return emptyScalar t.start

/-- The next event, or `none` once the stream has ended. -/
def nextEvent : ReadM (Option Event) := do
  match (← get).expect with
  | .streamStart => some <$> readStreamStart
  | .implicitDocumentStart => some <$> readDocumentStart true
  | .documentStart => some <$> readDocumentStart false
  | .documentContent => some <$> readDocumentContent (readNode true false)
  | .documentEnd => some <$> readDocumentEnd
  | .blockNode => some <$> readNode true false
  | .blockNodeOrIndentlessSequence => some <$> readNode true true
  | .flowNode => some <$> readNode false false
  | .blockSequenceFirstEntry => some <$> readBlockSequenceEntry true
  | .blockSequenceEntry => some <$> readBlockSequenceEntry false
  | .indentlessSequenceEntry => some <$> readIndentlessEntry
  | .blockMappingFirstKey => some <$> readBlockMappingKey true
  | .blockMappingKey => some <$> readBlockMappingKey false
  | .blockMappingValue => some <$> readBlockMappingValue
  | .flowSequenceFirstEntry => some <$> readFlowSequenceEntry true
  | .flowSequenceEntry => some <$> readFlowSequenceEntry false
  | .flowSequenceEntryMappingKey => some <$> readFlowPairKey
  | .flowSequenceEntryMappingValue => some <$> readFlowPairValue
  | .flowSequenceEntryMappingEnd => some <$> readFlowPairEnd
  | .flowMappingFirstKey => some <$> readFlowMappingKey true
  | .flowMappingKey => some <$> readFlowMappingKey false
  | .flowMappingValue => some <$> readFlowMappingValue false
  | .flowMappingEmptyValue => some <$> readFlowMappingValue true
  | .finished => return none

/-- The events of a text up to the end of the stream, and the error that ended them early, if
one did. -/
def Event.listOf (text : String) : List Event × Option SyntaxError :=
  match Cursor.start text with
  | .error e => ([], some e)
  | .ok cursor =>
    let reader : Reader := ⟨cursor, .streamStart, [], [], []⟩
    let rec go (fuel : Nat) (r : Reader) (acc : Array Event) : List Event × Option SyntaxError :=
      match fuel with
      | 0 => (acc.toList, none)
      | fuel + 1 =>
        match nextEvent.run r with
        | .error e => (acc.toList, some e)
        | .ok (none, _) => (acc.toList, none)
        | .ok (some ev, r) => go fuel r (acc.push ev)
    go (4 * cursor.text.size + 16) reader #[]

end ComponentSync.Yaml
