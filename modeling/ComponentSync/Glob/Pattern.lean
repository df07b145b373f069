/-!
Shell-style path patterns. A pattern is compiled into tokens: `?` is one character, `*` a run of
characters inside one path component, `**` a run of whole components, `[...]` and `[!...]` a
character class, and every other character stands for itself. The separator is `/`.

Compiling either yields the tokens or the position where the text stops being a pattern:

- three or more stars in a row;
- `**` that is not a whole component (something other than `/` before or after it);
- `[` with no `]` far enough after it to close a class.
-/
namespace ComponentSync.Glob

/-- One member of a character class: a character, or an inclusive range of code points. -/
inductive ClassItem
  | single (c : Char)
  | range (lo hi : Char)
  deriving DecidableEq, Repr

def ClassItem.contains : ClassItem → Char → Bool
  | .single a, c => c == a
  | .range lo hi, c => lo ≤ c && c ≤ hi

/-- Reads the members of a class: `a-b` is a range when a character follows the dash. -/
def ClassItem.parseList : List Char → List ClassItem
  | a :: '-' :: b :: rest => .range a b :: parseList rest
  | a :: rest => .single a :: parseList rest
  | [] => []

inductive Token
  | literal (c : Char)
  | anyChar
  /-- `*`: any characters up to the next separator. -/
  | anySequence
  /-- `**`: any number of whole path components. -/
  | anyComponents
  | within (items : List ClassItem)
  | except (items : List ClassItem)
  deriving DecidableEq, Repr

inductive Fault
  | tooManyStars
  | loneDoubleStar
  | badClass
  deriving DecidableEq, Repr

/-- A pattern that failed to compile, with the position of the fault in characters. -/
structure PatternError where
  pos : Nat
  fault : Fault
  deriving DecidableEq, Repr

def Fault.text : Fault → String
  | .tooManyStars => "wildcards are either regular `*` or recursive `**`"
  | .loneDoubleStar => "recursive wildcards must form a single path component"
  | .badClass => "invalid range pattern"

def PatternError.message (e : PatternError) : String :=
  "Pattern syntax error near position " ++ toString e.pos ++ ": " ++ e.fault.text

structure Pattern where
  tokens : List Token
  deriving DecidableEq, Repr

/-- Appends `**`, unless the tokens already end in one after some other token. -/
def pushComponents (acc : List Token) : List Token :=
  match acc with
  | .anyComponents :: _ :: _ => acc
  | _ => .anyComponents :: acc

/-- The index of the first `]` in a list. -/
def closingIndex (cs : List Char) : Option Nat :=
  cs.findIdx? (· == ']')

/-- Compiles the characters `rest`, which start at position `pos`; `prev` is the character before
them and `acc` holds the tokens so far, last first. -/
def compileFrom (pos : Nat) (prev : Option Char) (acc : List Token) (rest : List Char) :
    Except PatternError (List Token) :=
  match h : rest with
  | [] => .ok acc.reverse
  | '?' :: tail => compileFrom (pos + 1) (some '?') (.anyChar :: acc) tail
  | '*' :: _ =>
    let count := (rest.takeWhile (· == '*')).length
    if count > 2 then .error ⟨pos + 2, .tooManyStars⟩
    else if count == 2 then
      if pos == 0 || prev == some '/' then
        match ha : rest.drop count with
        | '/' :: tail => compileFrom (pos + 3) (some '/') (pushComponents acc) tail
        | [] => .ok (pushComponents acc).reverse
        | _ => .error ⟨pos + 2, .loneDoubleStar⟩
      else .error ⟨pos - 1, .loneDoubleStar⟩
    else compileFrom (pos + 1) (some '*') (.anySequence :: acc) (rest.drop 1)
  | '[' :: tail =>
    let negated := tail.head? == some '!'
    if rest.length ≥ 4 && negated then
      match closingIndex (rest.drop 3) with
      | some j =>
        let items := ClassItem.parseList ((rest.drop 2).take (j + 1))
        compileFrom (pos + j + 4) (some ']') (.except items :: acc) (rest.drop (j + 4))
      | none => .error ⟨pos, .badClass⟩
    else if rest.length ≥ 3 && !negated then
      match closingIndex (rest.drop 2) with
      | some j =>
        let items := ClassItem.parseList ((rest.drop 1).take (j + 1))
        compileFrom (pos + j + 3) (some ']') (.within items :: acc) (rest.drop (j + 3))
      | none => .error ⟨pos, .badClass⟩
    else .error ⟨pos, .badClass⟩
  | c :: tail => compileFrom (pos + 1) (some c) (.literal c :: acc) tail
termination_by rest.length
decreasing_by
  all_goals subst h
  all_goals try (have hl := congrArg List.length ha; simp only [List.length_drop] at hl)
  all_goals simp_all
  all_goals omega

def Pattern.compile (text : String) : Except PatternError Pattern :=
  (compileFrom 0 none [] text.toList).map Pattern.mk

end ComponentSync.Glob
