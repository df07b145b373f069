import ComponentSync.Yaml.Token.Cursor
/-!
Scalars: plain, single- and double-quoted, and block scalars, literal (`|`) or folded (`>`).

Flow and plain scalars fold line breaks: one break between two pieces of text becomes a space,
and each further break stays a line feed. Double-quoted scalars know the escapes of YAML 1.1,
among them `\x`, `\u` and `\U` with two, four and eight hex digits. Block scalars keep their
lines as written, less the indentation; a folded one joins lines that neither start nor follow
a more-indented line. The chomping indicator decides the final breaks: `-` drops them all,
`+` keeps them all, and by default the first is kept.
-/
namespace ComponentSync.Yaml

/-- What stands between two pieces of a flow or plain scalar: the blanks between them on one
line, or the folded form of the breaks between them. -/
def joinPieces (brokeLine : Bool) (firstBreak laterBreaks blanks : String) : String :=
  if brokeLine then
    if firstBreak.startsWith "\n" then (if laterBreaks.isEmpty then " " else laterBreaks)
    else firstBreak ++ laterBreaks
  else blanks

/-- A flow or plain scalar as read so far: its text, and what stood since its last piece: the
first line break, the later ones, the blanks, and whether a line was broken. -/
structure Folding where
  text : String
  firstBreak : String
  laterBreaks : String
  blanks : String
  brokeLine : Bool

def Folding.empty : Folding := ⟨"", "", "", "", false⟩

/-- The text with what stood since its last piece joined to it, ready for the next piece. -/
def Folding.flush (f : Folding) : Folding :=
  if f.brokeLine || !f.blanks.isEmpty then
    ⟨f.text ++ joinPieces f.brokeLine f.firstBreak f.laterBreaks f.blanks, "", "", "", false⟩
  else f

/-- Whether a plain scalar ends here: before a blank or the end of a line, before `: `, and in
flow context before a flow indicator or a `:` that one follows. -/
def Cursor.endsPlain (s : Cursor) : Bool :=
  let c := s.ahead 0
  let n := s.ahead 1
  let flowStop := c == ',' || c == '[' || c == ']' || c == '{' || c == '}'
  let flowNext := n == ',' || n == '?' || n == '[' || n == ']' || n == '{' || n == '}'
  isBlankOrEnd c || (s.flowLevel != 0 && c == ':' && flowNext) || (c == ':' && isBlankOrEnd n) ||
    (s.flowLevel != 0 && flowStop)

/-- Reads at most `fuel` characters of a piece of a plain scalar; `stop` is where the scalar
read so far ends. -/
def plainPiece (stop : Mark) (f : Folding) : Nat → ScanM (Mark × Folding)
  | 0 => pure (stop, f)
  | fuel + 1 => do
    if (← get).endsPlain then return (stop, f)
    let f := f.flush
    let text ← readChar f.text
    plainPiece (← get).mark { f with text } fuel

/-- Reads at most `fuel` blanks and line breaks after a piece of a plain scalar. A tab may not
stand in the indentation of a new line, which lies before column `indent`. -/
def plainGap (indent : Int) (start : Mark) (f : Folding) : Nat → ScanM Folding
  | 0 => pure f
  | fuel + 1 => do
    let s ← get
    let c := s.ahead 0
    if isBlank c then
      if f.brokeLine && (s.mark.column : Int) < indent && c == '\t' then
        failWithin "while scanning a plain scalar" start
          "found a tab character that violates indentation"
      if f.brokeLine then
        skip
        plainGap indent start f fuel
      else
        let blanks ← readChar f.blanks
        plainGap indent start { f with blanks } fuel
    else if isBreak c then
      if f.brokeLine then
        let laterBreaks ← readBreak f.laterBreaks
        plainGap indent start { f with laterBreaks } fuel
      else
        let firstBreak ← readBreak f.firstBreak
        plainGap indent start { f with blanks := "", firstBreak, brokeLine := true } fuel
    else return f

/-- Reads at most `lines` pieces of a plain scalar with the gaps after them; each loop over
characters takes at most `fuel` steps. The scalar ends at a document marker, before a comment,
after a piece not followed by a blank or break, and at a line indented before column
`indent`. -/
def plainLines (fuel : Nat) (indent : Int) (start : Mark) (stop : Mark) (f : Folding) :
    Nat → ScanM (Mark × Folding)
  | 0 => pure (stop, f)
  | lines + 1 => do
    let s ← get
    if s.atDocumentMarker || s.ahead 0 == '#' then return (stop, f)
    let (stop, f) ← plainPiece stop f fuel
    let c ← peekAt 0
    if !(isBlank c || isBreak c) then return (stop, f)
    let f ← plainGap indent start f fuel
    let s ← get
    if s.flowLevel == 0 && (s.mark.column : Int) < indent then return (stop, f)
    plainLines fuel indent start stop f lines

/-- Reads a plain scalar. It ends before `: ` or ` #`, at a line indented less than the block
it belongs to, at a document marker, and, in flow context, at a flow indicator. -/
def scanPlain : ScanM Token := do
  let s0 ← get
  let (stop, f) ← plainLines s0.fuel (s0.indent + 1) s0.mark s0.mark Folding.empty s0.fuel
  if f.brokeLine then modify fun s => { s with keyAllowed := true }
  return ⟨.scalar f.text .plain, s0.mark, stop⟩

/-- What a backslash escape stands for in a double-quoted scalar. -/
inductive Escape
  | char (c : Char)
  /-- A code point given by this many hex digits. -/
  | code (digits : Nat)
  | unknown

/-- The escape that a character after a backslash starts. -/
def escapeOf (c : Char) : Escape :=
  match c with
  | '0' => .char '\x00'
  | 'a' => .char '\x07'
  | 'b' => .char '\x08'
  | 't' => .char '\t'
  | '\t' => .char '\t'
  | 'n' => .char '\n'
  | 'v' => .char '\x0b'
  | 'f' => .char '\x0c'
  | 'r' => .char '\r'
  | 'e' => .char '\x1b'
  | ' ' => .char ' '
  | '"' => .char '"'
  | '/' => .char '/'
  | '\'' => .char '\''
  | '\\' => .char '\\'
  | 'N' => .char '\x85'
  | '_' => .char '\xa0'
  | 'L' => .char '\u2028'
  | 'P' => .char '\u2029'
  | 'x' => .code 2
  | 'u' => .code 4
  | 'U' => .code 8
  | _ => .unknown

/-- The number that hex digits spell, if each one is a hex digit. -/
def hexNumber (digits : List Char) : Option Nat :=
  digits.foldlM (fun value c => (hexValue c).map (value * 16 + ·)) 0

/-- Reads the hex digits of a code-point escape and moves past them. -/
def scanCodePoint (digits : Nat) (start : Mark) : ScanM Char := do
  let s ← get
  let some value := hexNumber ((List.range digits).map s.ahead) |
    failWithin "while parsing a quoted scalar" start "did not find expected hexdecimal number"
  if (0xD800 ≤ value && value ≤ 0xDFFF) || value > 0x10FFFF then
    failWithin "while parsing a quoted scalar" start "found invalid Unicode character escape code"
  skipChars digits
  return Char.ofNat value

/-- Reads at most `fuel` characters of a quoted scalar, up to a blank, a line break or its
closing quote. Returns the text and whether an escaped line break ended the piece. -/
def quotedPiece (single : Bool) (start : Mark) (text : String) : Nat → ScanM (String × Bool)
  | 0 => pure (text, false)
  | fuel + 1 => do
    let s ← get
    let c := s.ahead 0
    if isBlankOrEnd c then return (text, false)
    if single && c == '\'' && s.ahead 1 == '\'' then
      skip
      skip
      quotedPiece single start (text.push '\'') fuel
    else if c == (if single then '\'' else '"') then return (text, false)
    else if !single && c == '\\' && isBreak (s.ahead 1) then
      skip
      skipLine
      return (text, true)
    else if !single && c == '\\' then
      match escapeOf (s.ahead 1) with
      | .char e =>
        skip
        skip
        quotedPiece single start (text.push e) fuel
      | .code digits =>
        skip
        skip
        let e ← scanCodePoint digits start
        quotedPiece single start (text.push e) fuel
      | .unknown =>
        failWithin "while parsing a quoted scalar" start "found unknown escape character"
    else
      let text ← readChar text
      quotedPiece single start text fuel

/-- Reads at most `fuel` blanks and line breaks between pieces of a quoted scalar. -/
def quotedGap (f : Folding) : Nat → ScanM Folding
  | 0 => pure f
  | fuel + 1 => do
    let c ← peekAt 0
    if isBlank c then
      if f.brokeLine then
        skip
        quotedGap f fuel
      else
        let blanks ← readChar f.blanks
        quotedGap { f with blanks } fuel
    else if isBreak c then
      if f.brokeLine then
        let laterBreaks ← readBreak f.laterBreaks
        quotedGap { f with laterBreaks } fuel
      else
        let firstBreak ← readBreak f.firstBreak
        quotedGap { f with blanks := "", firstBreak, brokeLine := true } fuel
    else return f

/-- Reads at most `lines` pieces of a quoted scalar with the gaps after them, up to its closing
quote; each loop over characters takes at most `fuel` steps. -/
def quotedLines (single : Bool) (start : Mark) (fuel : Nat) (f : Folding) : Nat → ScanM String
  | 0 => pure f.text
  | lines + 1 => do
    let s ← get
    if s.atDocumentMarker then
      failWithin "while scanning a quoted scalar" start "found unexpected document indicator"
    if s.ahead 0 == endChar then
      failWithin "while scanning a quoted scalar" start "found unexpected end of stream"
    let (text, broke) ← quotedPiece single start f.text fuel
    if (← peekAt 0) == (if single then '\'' else '"') then return text
    let g ← quotedGap { f with text, brokeLine := broke } fuel
    let text := g.text ++ joinPieces g.brokeLine g.firstBreak g.laterBreaks g.blanks
    let f := if g.brokeLine then { g with text, firstBreak := "", laterBreaks := "" }
      else { g with text, blanks := "" }
    quotedLines single start fuel f lines

def scanQuoted (single : Bool) : ScanM Token := do
  let s0 ← get
  skip
  let text ← quotedLines single s0.mark s0.fuel Folding.empty s0.fuel
  skip
  let stop := (← get).mark
  return ⟨.scalar text (if single then .singleQuoted else .doubleQuoted), s0.mark, stop⟩

/-- Moves past the indentation and empty lines before a line of a block scalar, collecting the
breaks. An indentation of zero is not known yet: it becomes the deepest indentation of the
empty lines or of the first line with text, and at least one more than the enclosing block's.
Returns the indentation, the breaks, and where the last break ended. -/
def scanBlockBreaks (indent : Int) (breaks : String) (start : Mark) :
    ScanM (Int × String × Mark) := do
  let s0 ← get
  let mut deepest : Int := 0
  let mut breaks := breaks
  let mut stop := s0.mark
  for _ in [0:s0.fuel] do
    for _ in [0:s0.fuel] do
      let s ← get
      if (indent == 0 || (s.mark.column : Int) < indent) && s.ahead 0 == ' ' then skip else break
    let s ← get
    if (s.mark.column : Int) > deepest then deepest := s.mark.column
    if (indent == 0 || (s.mark.column : Int) < indent) && s.ahead 0 == '\t' then
      failWithin "while scanning a block scalar" start
        "found a tab character where an indentation space is expected"
    if !isBreak (s.ahead 0) then break
    breaks ← readBreak breaks
    stop := (← get).mark
  let s ← get
  let found := if indent == 0 then max (max deepest (s.indent + 1)) 1 else indent
  return (found, breaks, stop)

/-- Reads the chomping (`+` or `-`) and indentation (`1` to `9`) indicators of a block scalar,
in either order. -/
def scanBlockHeader (start : Mark) : ScanM (Int × Nat) := do
  let zeroIndent : ScanM Unit :=
    failWithin "while scanning a block scalar" start "found an indentation indicator equal to 0"
  let c ← peekAt 0
  if c == '+' || c == '-' then
    skip
    let d ← peekAt 0
    if d.isDigit then
      if d == '0' then zeroIndent
      skip
      return (if c == '+' then 1 else -1, d.toNat - '0'.toNat)
    return (if c == '+' then 1 else -1, 0)
  else if c.isDigit then
    if c == '0' then zeroIndent
    skip
    let d ← peekAt 0
    if d == '+' || d == '-' then
      skip
      return (if d == '+' then 1 else -1, c.toNat - '0'.toNat)
    return (0, c.toNat - '0'.toNat)
  else return (0, 0)

def scanBlockScalar (literal : Bool) : ScanM Token := do
  let s0 ← get
  let start := s0.mark
  skip
  let (chomping, increment) ← scanBlockHeader start
  for _ in [0:s0.fuel] do
    if isBlank (← peekAt 0) then skip else break
  if (← peekAt 0) == '#' then
    for _ in [0:s0.fuel] do
      if isBreakOrEnd (← peekAt 0) then break
      skip
  if !isBreakOrEnd (← peekAt 0) then
    failWithin "while scanning a block scalar" start "did not find expected comment or line break"
  if isBreak (← peekAt 0) then skipLine
  let s ← get
  let given : Int :=
    if increment == 0 then 0 else if s.indent ≥ 0 then s.indent + increment else increment
  let (indent, breaks, stop) ← scanBlockBreaks given "" start
  let mut indent := indent
  let mut laterBreaks := breaks
  let mut stop := stop
  let mut text := ""
  let mut firstBreak := ""
  let mut leadingBlank := false
  for _ in [0:s0.fuel] do
    let s ← get
    if !((s.mark.column : Int) == indent && s.ahead 0 != endChar) then break
    let trailingBlank := isBlank (s.ahead 0)
    if !literal && firstBreak.startsWith "\n" && !leadingBlank && !trailingBlank then
      if laterBreaks.isEmpty then text := text.push ' '
    else text := text ++ firstBreak
    firstBreak := ""
    text := text ++ laterBreaks
    leadingBlank := isBlank (s.ahead 0)
    for _ in [0:s0.fuel] do
      if isBreakOrEnd (← peekAt 0) then break
      text ← readChar text
    firstBreak ← readBreak ""
    let (i, b, e) ← scanBlockBreaks indent "" start
    indent := i
    laterBreaks := b
    stop := e
  if chomping != -1 then text := text ++ firstBreak
  if chomping == 1 then text := text ++ laterBreaks
  return ⟨.scalar text (if literal then .literal else .folded), start, stop⟩

end ComponentSync.Yaml
