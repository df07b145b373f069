/-!
Positions in a YAML text and the errors of reading one. A position counts characters from the
start of the text, and lines and columns from zero; messages show lines and columns from one.

An error names the problem and where it showed, and, when the reader knows it, the construct it
was reading and where that began. A message leaves out a position at the very start of the
text, and the construct's position when it equals the problem's.
-/
namespace ComponentSync.Yaml

/-- A position in the text: the characters before it, and its line and column from zero. -/
structure Mark where
  index : Nat
  line : Nat
  column : Nat
  deriving DecidableEq, Repr, Inhabited

def Mark.origin : Mark := ⟨0, 0, 0⟩

/-- Whether a position is past the first character of the first line. -/
def Mark.isPlaced (m : Mark) : Bool :=
  m.line != 0 || m.column != 0

/-- A position as messages write it, counting from one. -/
def Mark.describe (m : Mark) : String :=
  if m.isPlaced then "line " ++ toString (m.line + 1) ++ " column " ++ toString (m.column + 1)
  else "position " ++ toString m.index

structure SyntaxError where
  problem : String
  problemMark : Mark
  /-- The byte offset of a character that no YAML text may hold; zero for other problems. -/
  offset : Nat
  context : Option String
  contextMark : Mark
  deriving Repr, Inhabited

/-- An error found at `mark` while reading the construct that began at `contextMark`. -/
def SyntaxError.within (context : String) (contextMark : Mark) (problem : String) (mark : Mark) :
    SyntaxError :=
  ⟨problem, mark, 0, some context, contextMark⟩

def SyntaxError.bare (problem : String) (mark : Mark) : SyntaxError :=
  ⟨problem, mark, 0, none, Mark.origin⟩

def SyntaxError.message (e : SyntaxError) : String :=
  let place :=
    if e.problemMark.isPlaced then " at " ++ e.problemMark.describe
    else if e.offset != 0 then " at position " ++ toString e.offset
    else ""
  let context := match e.context with
    | none => ""
    | some c =>
      let samePlace := e.contextMark.line == e.problemMark.line &&
        e.contextMark.column == e.problemMark.column
      ", " ++ c ++ (if e.contextMark.isPlaced && !samePlace then " at " ++ e.contextMark.describe
        else "")
  e.problem ++ place ++ context

end ComponentSync.Yaml
