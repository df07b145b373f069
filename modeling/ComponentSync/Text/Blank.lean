/-!
Blank characters and the line and trim operations built on them. A blank is a character with the
Unicode `White_Space` property; trimming removes blanks at the ends, and lines end at a line feed
with an optional carriage return before it.
-/
namespace ComponentSync.Text

def isBlank (c : Char) : Bool :=
  let n := c.toNat
  (0x09 ≤ n && n ≤ 0x0D) || n == 0x20 || n == 0x85 || n == 0xA0 || n == 0x1680 ||
    (0x2000 ≤ n && n ≤ 0x200A) || n == 0x2028 || n == 0x2029 || n == 0x202F ||
    n == 0x205F || n == 0x3000

def trimBlank (s : String) : String :=
  String.ofList ((s.toList.dropWhile isBlank).reverse.dropWhile isBlank).reverse

def trimBlankStart (s : String) : String :=
  String.ofList (s.toList.dropWhile isBlank)

def trimBlankEnd (s : String) : String :=
  String.ofList (s.toList.reverse.dropWhile isBlank).reverse

def dropLeading (c : Char) (s : String) : String :=
  String.ofList (s.toList.dropWhile (· == c))

def dropTrailing (c : Char) (s : String) : String :=
  String.ofList (s.toList.reverse.dropWhile (· == c)).reverse

/-- Drops every leading copy of the two-character prefix `a b`. -/
def dropLeadingPair (a b : Char) : List Char → List Char
  | x :: y :: rest => if x = a ∧ y = b then dropLeadingPair a b rest else x :: y :: rest
  | cs => cs

/-- Splits text into lines: a line feed ends a line and drops one carriage return before it;
text after the last line feed is a last line, kept as it is, when it is not empty. -/
def lines (s : String) : List String :=
  go s.toList []
where
  go : List Char → List Char → List String
    | [], acc => if acc.isEmpty then [] else [String.ofList acc.reverse]
    | '\n' :: rest, acc =>
      let line := match acc with
        | '\r' :: before => before
        | _ => acc
      String.ofList line.reverse :: go rest []
    | c :: rest, acc => go rest (c :: acc)

end ComponentSync.Text
