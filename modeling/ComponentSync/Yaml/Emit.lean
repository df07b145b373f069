import ComponentSync.Yaml.Scalar
/-!
Writing structured values as YAML in block style: one `key: value` per line, nested mappings
indented by two spaces, and sequence entries `- item` at the indentation of their key. Empty
collections are written `{}` and `[]`.

A string is written plain only when it is made of letters, digits and `-_./:@+=`, starts with
a letter, a digit, `/`, `_` or `.`, does not end with `:`, and would not be read back as
anything but that string; every other string is double-quoted with escapes. Reading the text
back gives the value written.
-/
/-!
Structured values as configuration files and answers hold them: null, booleans, integers,
strings, sequences, and maps whose keys keep the order they were written in.
-/
namespace ComponentSync

inductive Value
  | null
  | bool (b : Bool)
  | int (i : Int)
  | str (s : String)
  | seq (items : List Value)
  | map (entries : List (String × Value))
  deriving Inhabited

def Value.ofOption : Option String → Value
  | some s => .str s
  | none => .null

def Value.strs (items : List String) : Value :=
  .seq (items.map .str)

end ComponentSync

namespace ComponentSync.Yaml

def isPlainSafe (s : String) : Bool :=
  let cs := s.toList
  let inner (c : Char) : Bool := c.isAlphanum || "-_./:@+=".contains c
  match cs with
  | [] => false
  | c :: _ =>
    (c.isAlphanum || c == '/' || c == '_' || c == '.') && cs.all inner && !s.endsWith ":" &&
      !s.startsWith "..." &&
      match plainValue s with
      | .str _ => true
      | _ => false

/-- The code point `n` as `width` uppercase hex digits. -/
def hexDigits (width n : Nat) : String :=
  let digits := (Nat.toDigits 16 n).map Char.toUpper
  String.ofList (List.replicate (width - digits.length) '0' ++ digits)

/-- Whether a character may stand unescaped in a double-quoted scalar: a printable character
of the basic plane other than a byte order mark, a line break, `"` or `\`. -/
def standsUnescaped (c : Char) : Bool :=
  let n := c.toNat
  ((0x20 ≤ n && n ≤ 0x7E) || (0xA0 ≤ n && n ≤ 0xD7FF) ||
    (0xE000 ≤ n && n ≤ 0xFFFD && n != 0xFEFF)) &&
    !(n == 0x2028 || n == 0x2029 || c == '"' || c == '\\')

/-- The escape that stands for a character in a double-quoted scalar: a letter for the
characters that have one, else its code point in two, four or eight hex digits. -/
def escapeChar (c : Char) : String :=
  match c with
  | '\x00' => "\\0"
  | '\x07' => "\\a"
  | '\x08' => "\\b"
  | '\t' => "\\t"
  | '\n' => "\\n"
  | '\x0b' => "\\v"
  | '\x0c' => "\\f"
  | '\r' => "\\r"
  | '\x1b' => "\\e"
  | '"' => "\\\""
  | '\\' => "\\\\"
  | '\x85' => "\\N"
  | '\xa0' => "\\_"
  | '\u2028' => "\\L"
  | '\u2029' => "\\P"
  | c =>
    let n := c.toNat
    if n ≤ 0xFF then "\\x" ++ hexDigits 2 n
    else if n ≤ 0xFFFF then "\\u" ++ hexDigits 4 n
    else "\\U" ++ hexDigits 8 n

/-- A string in double quotes, every character that may not stand in it escaped. -/
def doubleQuoted (s : String) : String :=
  "\"" ++ String.join (s.toList.map fun c =>
    if standsUnescaped c then c.toString else escapeChar c) ++ "\""

/-- A string as written: plain when safe, otherwise double-quoted. -/
def writeString (s : String) : String :=
  if isPlainSafe s then s else doubleQuoted s

/-- The text of a value that fits on one line, if it does. -/
def inlineText : Value → Option String
  | .null => some "null"
  | .bool b => some (if b then "true" else "false")
  | .int i => some (toString i)
  | .str s => some (writeString s)
  | .seq [] => some "[]"
  | .map [] => some "\x7b\x7d"
  | _ => none

def indentText (indent : Nat) : String :=
  String.ofList (List.replicate indent ' ')

mutual
/-- The lines of a value in block style, each indented by `indent` spaces. -/
def blockLines (indent : Nat) : Value → List String
  | .map entries => entryLines indent entries
  | .seq items => itemLines indent items
  | v => [indentText indent ++ (inlineText v).getD ""]

/-- The lines of mapping entries; entries of a sequence that is the value of a key stand at the
key's indentation. -/
def entryLines (indent : Nat) : List (String × Value) → List String
  | [] => []
  | entry :: rest => entryBlock indent entry ++ entryLines indent rest

/-- The lines of one mapping entry: the key followed by the value when it fits on the line,
else the key alone and the value's lines after it. -/
def entryBlock (indent : Nat) : String × Value → List String
  | (k, .seq items) =>
    let key := indentText indent ++ writeString k ++ ":"
    match inlineText (.seq items) with
    | some t => [key ++ " " ++ t]
    | none => key :: itemLines indent items
  | (k, .map entries) =>
    let key := indentText indent ++ writeString k ++ ":"
    match inlineText (.map entries) with
    | some t => [key ++ " " ++ t]
    | none => key :: entryLines (indent + 2) entries
  | (k, v) =>
    let key := indentText indent ++ writeString k ++ ":"
    match inlineText v with
    | some t => [key ++ " " ++ t]
    | none => [key]

def itemLines (indent : Nat) : List Value → List String
  | [] => []
  | v :: rest =>
    let here := match inlineText v with
      | some t => [indentText indent ++ "- " ++ t]
      | none =>
        match blockLines (indent + 2) v with
        | first :: more =>
          (indentText indent ++ "- " ++ String.ofList (first.toList.drop (indent + 2))) :: more
        | [] => [indentText indent ++ "-"]
    here ++ itemLines indent rest
end

end ComponentSync.Yaml

namespace ComponentSync

/-- A value written as a YAML document, each line ended by a line feed. -/
def Value.toYaml (v : Value) : String :=
  String.join ((Yaml.blockLines 0 v).map (· ++ "\n"))

end ComponentSync
