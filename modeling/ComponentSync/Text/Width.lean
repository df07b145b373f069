import ComponentSync.Text.Width.Data
/-!
The width of text in terminal columns, as tables lay it out. A text is read from its end to its
start, and each character's columns depend on the sequence the characters after it began:

* every character up to U+00A0, control characters included, takes one column, but a carriage
  return before a line feed takes none;
* an emoji, an emoji modifier sequence, a pair of regional indicators and an emoji sequence
  joined by zero width joiners take two columns in all; a character that is text by default
  takes two when an emoji presentation selector follows it, and a wide emoji one when a text
  presentation selector follows it;
* an Arabic Lam followed by an Alef, a Hebrew Alef joined to a Lamed, a Khmer coeng sign with
  the letter it subscripts, a Tifinagh consonant pair, a Lisu tone combination and the Buginese
  and Old Turkic ligatures take the columns of a single letter;
* any other character takes the columns its class in the Unicode tables gives it.
-/
namespace ComponentSync.Text

/-- The value of a hexadecimal digit written in upper case. -/
def hexDigitValue (c : Char) : Nat :=
  if c.isDigit then c.toNat - '0'.toNat
  else if 'A' ≤ c && c ≤ 'F' then c.toNat - 'A'.toNat + 10
  else 0

def hexValue (s : String) : Nat :=
  s.foldl (fun n c => n * 16 + hexDigitValue c) 0

def dataWords (s : String) : List String :=
  (s.splitOn " ").filter (· != "")

inductive WidthClass
  | narrow
  | zero
  | wide
  | three
  | emoji
  | modifier
  | regional
  | alef
  | lamed
  | khmerLetter
  | bugineseYa
  | tifinagh
  | lisuTone
  | orkhonI
  | emojiSelector
  | textSelector
  deriving DecidableEq, Repr

/-- The class a letter of the class table names. -/
def WidthClass.ofLetter : String → WidthClass
  | "0" => .zero
  | "2" => .wide
  | "3" => .three
  | "E" => .emoji
  | "M" => .modifier
  | "R" => .regional
  | "A" => .alef
  | "H" => .lamed
  | "K" => .khmerLetter
  | "B" => .bugineseYa
  | "T" => .tifinagh
  | "L" => .lisuTone
  | "O" => .orkhonI
  | "S" => .emojiSelector
  | "X" => .textSelector
  | _ => .narrow

/-- The ranges of a data text of first and last code points followed by a label. -/
def labelledRanges {α : Type} (label : String → α) : List String → List (Nat × Nat × α)
  | lo :: hi :: k :: rest => (hexValue lo, hexValue hi, label k) :: labelledRanges label rest
  | _ => []

/-- The ranges of a data text of first and last code points. -/
def plainRanges : List String → List (Nat × Nat × Unit)
  | lo :: hi :: rest => (hexValue lo, hexValue hi, ()) :: plainRanges rest
  | _ => []

/-- The label of the range that holds `n`, in ranges sorted by their first code point and not
overlapping: the search halves the entries still in question, from `lo` up to `hi`. -/
def findRange {α : Type} (ranges : Array (Nat × Nat × α)) (n : Nat) : Option α :=
  go 0 ranges.size
where
  go (lo hi : Nat) : Option α :=
    if _h : lo < hi then
      let mid := (lo + hi) / 2
      match ranges[mid]? with
      | some (first, last, label) =>
        if n < first then go lo mid
        else if last < n then go (mid + 1) hi
        else some label
      | none => none
    else none
  termination_by hi - lo

def widthClasses : Array (Nat × Nat × WidthClass) :=
  (labelledRanges WidthClass.ofLetter (dataWords widthClassData)).toArray

/-- The characters that start an emoji presentation sequence but are text by default. -/
def emojiStarters : Array (Nat × Nat × Unit) :=
  (plainRanges (dataWords emojiStarterData)).toArray

def textStarters : Array (Nat × Nat × Unit) :=
  (plainRanges (dataWords textStarterData)).toArray

def modifierBases : Array (Nat × Nat × Unit) :=
  (plainRanges (dataWords modifierBaseData)).toArray

def joiningTransparent : Array (Nat × Nat × Unit) :=
  (plainRanges (dataWords joiningTransparentData)).toArray

def WidthClass.of (c : Char) : WidthClass :=
  (findRange widthClasses c.toNat).getD .narrow

/-- Whether an emoji presentation selector after `c` makes it an emoji. -/
def isEmojiStarter (c : Char) : Bool :=
  (findRange emojiStarters c.toNat).isSome

/-- Whether a text presentation selector after `c` makes it one column wide. -/
def isTextStarter (c : Char) : Bool :=
  (findRange textStarters c.toNat).isSome

def isModifierBase (c : Char) : Bool :=
  (findRange modifierBases c.toNat).isSome

def isJoiningTransparent (c : Char) : Bool :=
  (findRange joiningTransparent c.toNat).isSome

def isRegionalIndicator (c : Char) : Bool :=
  0x1F1E6 ≤ c.toNat && c.toNat ≤ 0x1F1FF

def isTagLetter (c : Char) : Bool :=
  0xE0061 ≤ c.toNat && c.toNat ≤ 0xE007A

def isTagDigit (c : Char) : Bool :=
  0xE0030 ≤ c.toNat && c.toNat ≤ 0xE0039

/-- Whether `c` is a Tifinagh consonant that joins another. -/
def isTifinaghConsonant (c : Char) : Bool :=
  (0x2D31 ≤ c.toNat && c.toNat ≤ 0x2D65) || c.toNat == 0x2D6F

/-- Whether `c` is an Arabic letter of the Lam joining group. -/
def isLam (c : Char) : Bool :=
  let n := c.toNat
  n == 0x644 || (0x6B5 ≤ n && n ≤ 0x6B8) || n == 0x76A || n == 0x8A6 || n == 0x8C7

/-- Whether `c` is a default-ignorable combining mark, which a ligature joins across. -/
def isLigatureTransparent (c : Char) : Bool :=
  let n := c.toNat
  n == 0x34F || n == 0x17B4 || n == 0x17B5 || (0x180B ≤ n && n ≤ 0x180D) || n == 0x180F ||
    (0xFE00 ≤ n && n ≤ 0xFE0F) || (0xE0100 ≤ n && n ≤ 0xE01EF)

/-- The sequence that the characters after a position began, read from the right. -/
inductive Joining
  | nothing
  | lineFeed
  | emoji
  | zwjEmoji
  | keycapZwjEmoji
  | modifier
  | regional
  | severalRegional
  | regionalZwj
  | evenRegionalZwj
  | oddRegionalZwj
  | tagEnd
  | tagLetters (count : Nat)
  | tagDigits (count : Nat)
  | alef
  | lamed
  | zwjLamed
  | khmerLetter
  | bugineseYa
  | zwjBugineseYa
  | bugineseIZwjYa
  | tifinagh
  | zwjTifinagh
  | tifinaghJoiner
  | lisuTone
  | orkhonI
  | zwjOrkhonI
  deriving DecidableEq, Repr

/-- Whether the sequence is an emoji sequence just joined by a zero width joiner. -/
def Joining.isZwjEmoji : Joining → Bool
  | .zwjEmoji | .keycapZwjEmoji => true
  | _ => false

/-- The sequence a zero width joiner continues a ligature into, for the ligatures that a
joiner does not break. -/
def Joining.afterJoiner : Joining → Option Joining
  | .lamed | .zwjLamed => some .zwjLamed
  | .bugineseYa | .zwjBugineseYa => some .zwjBugineseYa
  | .tifinagh | .zwjTifinagh => some .zwjTifinagh
  | .orkhonI | .zwjOrkhonI => some .zwjOrkhonI
  | _ => none

/-- What follows a character: the sequence begun after it, and whether a variation selector
right after it asks for emoji or for text presentation. -/
structure Following where
  joining : Joining
  emojiStyle : Bool
  textStyle : Bool
  deriving DecidableEq, Repr

def Following.plain : Following := ⟨.nothing, false, false⟩

def Following.of (j : Joining) : Following := ⟨j, false, false⟩

/-- A character's columns from its class alone, and what it is for the character before it. -/
def ownWidth (c : Char) : Int × Following :=
  match WidthClass.of c with
  | .narrow => (1, .plain)
  | .zero => (0, .plain)
  | .wide => (2, .plain)
  | .three => (3, .plain)
  | .emoji => (2, .of .emoji)
  | .modifier => (2, .of .modifier)
  | .regional => (1, .of .regional)
  | .alef => (1, .of .alef)
  | .lamed => (1, .of .lamed)
  | .khmerLetter => (1, .of .khmerLetter)
  | .bugineseYa => (1, .of .bugineseYa)
  | .tifinagh => (1, .of .tifinagh)
  | .lisuTone => (1, .of .lisuTone)
  | .orkhonI => (1, .of .orkhonI)
  | .emojiSelector => (0, ⟨.nothing, true, false⟩)
  | .textSelector => (0, ⟨.nothing, false, true⟩)

/-- The columns a character adds when it continues the sequence `j` that follows it, with what
it makes of the sequence; `none` when it does not continue it. -/
def joinedWidth (c : Char) (j : Joining) : Option (Int × Following) :=
  let n := c.toNat
  let zwj := n == 0x200D
  match j with
  | .alef =>
    if isLam c then some (0, .plain)
    else if isJoiningTransparent c then some (0, .of .alef)
    else none
  | .zwjLamed => if n == 0x5D0 then some (0, .plain) else none
  | .khmerLetter => if n == 0x17D2 then some (-1, .plain) else none
  | .zwjBugineseYa => if n == 0x1A17 then some (0, .of .bugineseIZwjYa) else none
  | .bugineseIZwjYa => if n == 0x1A15 then some (0, .plain) else none
  | .tifinagh => if n == 0x2D7F then some (1, .of .tifinaghJoiner) else none
  | .zwjTifinagh =>
    if n == 0x2D7F then some (1, .of .tifinaghJoiner)
    else if isTifinaghConsonant c then some (0, .plain)
    else none
  | .tifinaghJoiner => if isTifinaghConsonant c then some (-1, .plain) else none
  | .lisuTone => if 0xA4F8 ≤ n && n ≤ 0xA4FB then some (0, .plain) else none
  | .zwjOrkhonI => if n == 0x10C32 then some (0, .plain) else none
  | .modifier =>
    if isModifierBase c then some (0, .of .emoji)
    else if zwj then some (0, .of .zwjEmoji)
    else none
  | .regional => if isRegionalIndicator c then some (1, .of .severalRegional) else none
  | .severalRegional =>
    if isRegionalIndicator c then some (1, .of .severalRegional)
    else if zwj then some (0, .of .zwjEmoji)
    else none
  | .emoji => if zwj then some (0, .of .zwjEmoji) else none
  | .evenRegionalZwj =>
    if zwj then some (0, .of .zwjEmoji)
    else if isRegionalIndicator c then some (3, .of .oddRegionalZwj)
    else none
  | .oddRegionalZwj =>
    if zwj then some (0, .of .zwjEmoji)
    else if isRegionalIndicator c then some (-1, .of .evenRegionalZwj)
    else none
  | .regionalZwj => if isRegionalIndicator c then some (-1, .of .evenRegionalZwj) else none
  | .zwjEmoji =>
    if n == 0x20E3 then some (0, .of .keycapZwjEmoji)
    else if isRegionalIndicator c then some (1, .of .regionalZwj)
    else if 0x1F3FB ≤ n && n ≤ 0x1F3FF then some (0, .of .modifier)
    else if n == 0xE007F then some (0, .of .tagEnd)
    else if WidthClass.of c == .emoji then some (0, .of .emoji)
    else none
  | .tagEnd =>
    if isTagLetter c then some (0, .of (.tagLetters 1))
    else if isTagDigit c then some (0, .of (.tagDigits 1))
    else none
  | .tagLetters k =>
    if isTagLetter c && k < 6 then some (0, .of (.tagLetters (k + 1)))
    else if isTagDigit c && k ≤ 4 then some (0, .of (.tagDigits 1))
    else if n == 0x1F3F4 && k ≥ 3 then some (0, .of .emoji)
    else none
  | .tagDigits k =>
    if isTagDigit c && k < 3 then some (0, .of (.tagDigits (k + 1)))
    else if n == 0x1F3F4 && k == 3 then some (0, .of .emoji)
    else none
  | _ => none

/-- The columns a character adds to the text after it, given what follows it, and what the
character and the text after it are for the character before. -/
def stepWidth (c : Char) (next : Following) : Int × Following :=
  let n := c.toNat
  if next.emojiStyle && isEmojiStarter c then
    (if next.joining.isZwjEmoji then 0 else 2, .of .emoji)
  else
    let next := { next with emojiStyle := false }
    if n ≤ 0xA0 then
      if c == '\n' then (1, .of .lineFeed)
      else if c == '\r' && next == .of .lineFeed then (0, .plain)
      else (1, .plain)
    else if next == .plain then ownWidth c
    else if n == 0xFE0F then (0, { next with emojiStyle := true })
    else if n == 0xFE0E then (0, { next with textStyle := true })
    else if next.textStyle && isTextStarter c then (1, .plain)
    else
      let next := { next with textStyle := false }
      let ligature : Option (Int × Following) :=
        next.joining.afterJoiner.bind fun joined =>
          if n == 0x200D then some (0, .of joined)
          else if isLigatureTransparent c then some (0, next)
          else none
      match ligature with
      | some step => step
      | none => (joinedWidth c next.joining).getD (ownWidth c)

def displayWidth (s : String) : Nat :=
  (s.toList.foldr (fun c (acc : Int × Following) =>
    let (w, before) := stepWidth c acc.2
    (acc.1 + w, before)) (0, Following.plain)).1.toNat

/-- A text followed by spaces up to `width` columns. -/
def padRight (s : String) (width : Nat) : String :=
  s ++ String.ofList (List.replicate (width - displayWidth s) ' ')

end ComponentSync.Text
