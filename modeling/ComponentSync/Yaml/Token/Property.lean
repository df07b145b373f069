import ComponentSync.Yaml.Token.Cursor
import ComponentSync.Text.Lossy
/-!
Node properties and directives: anchors (`&name`), aliases (`*name`), tags (`!suffix`,
`!handle!suffix`, `!<verbatim>`), and the `%YAML` and `%TAG` directives.

A tag is read as a handle and a suffix. The suffix may hold `%`-escaped bytes, which must form
UTF-8 sequences. The lone `!` is read as the empty handle with the suffix `!`.
-/
namespace ComponentSync.Yaml

/-- Whether a character may stand in a tag or URI: a word character or one of
`;/?:@&=+$.%!~*'()`. -/
def isUriChar (c : Char) : Bool :=
  isWordChar c || ";/?:@&=+$.%!~*'()".contains c

/-- Reads an anchor or alias name after its indicator. The name must be followed by a blank,
the end of a line, or one of `?:,]}%@` and a backquote. -/
def scanAnchor (isAlias : Bool) : ScanM Token := do
  let s0 ← get
  let start := s0.mark
  skip
  let mut name := ""
  for _ in [0:s0.fuel] do
    if isWordChar (← peekAt 0) then name ← readChar name else break
  let stop := (← get).mark
  let c ← peekAt 0
  if name.isEmpty || !(isBlankOrEnd c || "?:,]\x7d%@`".contains c) then
    failWithin (if isAlias then "while scanning an alias" else "while scanning an anchor") start
      "did not find expected alphabetic or numeric character"
  return ⟨if isAlias then .alias name else .anchor name, start, stop⟩

def tagContext (directive : Bool) : String :=
  if directive then "while parsing a %TAG directive" else "while parsing a tag"

def scanUriEscapes (directive : Bool) (start : Mark) : ScanM (List UInt8) := do
  let s0 ← get
  let mut bytes : List UInt8 := []
  let mut width := 0
  for _ in [0:s0.fuel] do
    let s ← get
    match s.ahead 0, hexValue (s.ahead 1), hexValue (s.ahead 2) with
    | '%', some hi, some lo =>
      let octet := hi * 16 + lo
      if width == 0 then
        width :=
          if octet < 0x80 then 1 else if octet / 32 == 6 then 2
          else if octet / 16 == 14 then 3 else if octet / 8 == 30 then 4 else 0
        if width == 0 then
          failWithin (tagContext directive) start "found an incorrect leading UTF-8 octet"
      else if octet / 64 != 2 then
        failWithin (tagContext directive) start "found an incorrect trailing UTF-8 octet"
      bytes := bytes ++ [octet.toUInt8]
      skip
      skip
      skip
      width := width - 1
      if width == 0 then break
    | _, _, _ => failWithin (tagContext directive) start "did not find URI escaped octet"
  return bytes

/-- Reads the URI part of a tag, after `head` (a handle that turned out to be part of it). A
verbatim tag may also hold `,`, `[` and `]`. -/
def scanTagUri (verbatim directive : Bool) (head : String) (start : Mark) : ScanM String := do
  let s0 ← get
  let mut text := String.ofList (head.toList.drop 1)
  let mut length := head.length
  for _ in [0:s0.fuel] do
    let c ← peekAt 0
    if isUriChar c || (verbatim && (c == ',' || c == '[' || c == ']')) then
      if c == '%' then
        let bytes ← scanUriEscapes directive start
        text := text ++ Text.lossyText (ByteArray.mk bytes.toArray)
      else text ← readChar text
      length := length + 1
    else break
  if length == 0 then failWithin (tagContext directive) start "did not find expected tag URI"
  return text

/-- Reads a tag handle: `!`, `!!` or `!word!`. Outside a directive, a `!word` without the
closing `!` is returned as it is, to be read as the start of a suffix. -/
def scanTagHandle (directive : Bool) (start : Mark) : ScanM String := do
  let s0 ← get
  if (← peekAt 0) != '!' then
    failWithin (if directive then "while scanning a tag directive" else "while scanning a tag")
      start "did not find expected '!'"
  let mut handle ← readChar ""
  for _ in [0:s0.fuel] do
    if isWordChar (← peekAt 0) then handle ← readChar handle else break
  if (← peekAt 0) == '!' then handle ← readChar handle
  else if directive && handle != "!" then
    failWithin "while parsing a tag directive" start "did not find expected '!'"
  return handle

def scanTag : ScanM Token := do
  let s0 ← get
  let start := s0.mark
  let (handle, suffix) ← do
    if s0.ahead 1 == '<' then
      skip
      skip
      let suffix ← scanTagUri true false "" start
      if (← peekAt 0) != '>' then
        failWithin "while scanning a tag" start "did not find the expected '>'"
      skip
      pure ("", suffix)
    else
      let handle ← scanTagHandle false start
      if handle.length > 1 && handle.startsWith "!" && handle.endsWith "!" then
        pure (handle, ← scanTagUri false false "" start)
      else
        let suffix ← scanTagUri false false handle start
        if suffix.isEmpty then pure ("", "!") else pure ("!", suffix)
  let s ← get
  let c := s.ahead 0
  if !isBlankOrEnd c && !(s.flowLevel != 0 && c == ',') then
    failWithin "while scanning a tag" start "did not find expected whitespace or line break"
  return ⟨.tag handle suffix, start, s.mark⟩

/-- Reads one number of a `%YAML` directive, of at most nine digits. -/
def scanVersionNumber (start : Mark) : ScanM Nat := do
  let s0 ← get
  let mut value := 0
  let mut length := 0
  for _ in [0:s0.fuel] do
    let c ← peekAt 0
    if !c.isDigit then break
    length := length + 1
    if length > 9 then
      failWithin "while scanning a %YAML directive" start "found extremely long version number"
    value := value * 10 + (c.toNat - '0'.toNat)
    skip
  if length == 0 then
    failWithin "while scanning a %YAML directive" start "did not find expected version number"
  return value

def skipBlanks : ScanM Unit := do
  let s0 ← get
  for _ in [0:s0.fuel] do
    if isBlank (← peekAt 0) then skip else break

/-- Reads a directive line, `%` included, up to and including its line break. -/
def scanDirective : ScanM Token := do
  let s0 ← get
  let start := s0.mark
  skip
  let mut name := ""
  for _ in [0:s0.fuel] do
    if isWordChar (← peekAt 0) then name ← readChar name else break
  if name.isEmpty then
    failWithin "while scanning a directive" start "could not find expected directive name"
  if !isBlankOrEnd (← peekAt 0) then
    failWithin "while scanning a directive" start "found unexpected non-alphabetical character"
  let kind ← do
    if name == "YAML" then
      skipBlanks
      let major ← scanVersionNumber start
      if (← peekAt 0) != '.' then
        failWithin "while scanning a %YAML directive" start
          "did not find expected digit or '.' character"
      skip
      let minor ← scanVersionNumber start
      pure (TokenKind.versionDirective major minor)
    else if name == "TAG" then
      skipBlanks
      let handle ← scanTagHandle true start
      if !isBlank (← peekAt 0) then
        failWithin "while scanning a %TAG directive" start "did not find expected whitespace"
      skipBlanks
      let pre ← scanTagUri true true "" start
      if !isBlankOrEnd (← peekAt 0) then
        failWithin "while scanning a %TAG directive" start
          "did not find expected whitespace or line break"
      pure (TokenKind.tagDirective handle pre)
    else failWithin "while scanning a directive" start "found unknown directive name"
  let stop := (← get).mark
  skipBlanks
  if (← peekAt 0) == '#' then
    for _ in [0:s0.fuel] do
      if isBreakOrEnd (← peekAt 0) then break
      skip
  if !isBreakOrEnd (← peekAt 0) then
    failWithin "while scanning a directive" start "did not find expected comment or line break"
  if isBreak (← peekAt 0) then skipLine
  return ⟨kind, start, stop⟩

end ComponentSync.Yaml
