/-!
Text in double quotes with escapes, as it appears inside diagnostics: a quote, a backslash and
the control characters tab, carriage return, line feed and NUL get a backslash form; other
characters that print nothing (controls, format characters, combining marks, private use) are
written `\u{hex}`; everything else stands for itself.
-/
namespace ComponentSync.Text

/-- Combining marks and variation selectors: characters that extend the one before them. -/
def isExtending (n : Nat) : Bool :=
  (0x300 ≤ n && n ≤ 0x36F) || (0x483 ≤ n && n ≤ 0x489) || (0x591 ≤ n && n ≤ 0x5BD) ||
    (0x610 ≤ n && n ≤ 0x61A) || (0x64B ≤ n && n ≤ 0x65F) || (0x1AB0 ≤ n && n ≤ 0x1AFF) ||
    (0x1DC0 ≤ n && n ≤ 0x1DFF) || n == 0x200C || (0x20D0 ≤ n && n ≤ 0x20FF) ||
    (0xFE00 ≤ n && n ≤ 0xFE0F) || (0xFE20 ≤ n && n ≤ 0xFE2F) ||
    (0xE0100 ≤ n && n ≤ 0xE01EF)

/-- Characters that print nothing visible: controls, format characters, separators other
than the space, private use and noncharacters. -/
def isInvisible (n : Nat) : Bool :=
  n < 0x20 || (0x7F ≤ n && n < 0xA0) || n == 0xAD || (0x200B ≤ n && n ≤ 0x200F) ||
    (0x2028 ≤ n && n ≤ 0x202E) || (0x2060 ≤ n && n ≤ 0x206F) || n == 0xFEFF ||
    (0xFFF0 ≤ n && n ≤ 0xFFFB) || n == 0xFFFE || n == 0xFFFF || (0xE000 ≤ n && n ≤ 0xF8FF) ||
    (0xF0000 ≤ n) || (0xE0000 ≤ n && n ≤ 0xE007F)

/-- Lowercase hexadecimal digits of a number, at least one. -/
def hexDigits (n : Nat) : String :=
  String.ofList (Nat.toDigits 16 n)

/-- The escaped form of one character inside double quotes. -/
def escapeChar (c : Char) : String :=
  match c with
  | '\t' => "\\t"
  | '\r' => "\\r"
  | '\n' => "\\n"
  | '\\' => "\\\\"
  | '"' => "\\\""
  | '\x00' => "\\0"
  | c =>
    if isExtending c.toNat || isInvisible c.toNat then "\\u" ++ "\x7b" ++ hexDigits c.toNat ++ "\x7d"
    else c.toString

def quoted (s : String) : String :=
  "\"" ++ String.join (s.toList.map escapeChar) ++ "\""

/-- A list of texts as a bracketed, comma-separated list of quoted items. -/
def quotedList (items : List String) : String :=
  "[" ++ ", ".intercalate (items.map quoted) ++ "]"

end ComponentSync.Text
