import ComponentSync.Glob.Pattern
/-!
Matching a path against a compiled pattern. Matching is case-sensitive and a separator `/` is
never matched by `?`, `*` or a class: only a literal `/` or `**` crosses components.

A star first tries to match nothing and then grows one character at a time. Each attempt has one
of three outcomes: a match, a failure of this attempt only (a longer run may still succeed), or a
failure of the whole pattern (the text ran out, so no longer run can help), which stops the search.
-/
namespace ComponentSync.Glob

inductive Outcome
  | matched
  /-- This attempt failed; another split of the text may still match. -/
  | retry
  /-- The text ran out: no other split can match. -/
  | exhausted
  deriving DecidableEq, Repr

def Token.accepts : Token → Char → Bool
  | .literal a, c => c == a
  | .anyChar, c => c != '/'
  | .within items, c => c != '/' && items.any (·.contains c)
  | .except items, c => c != '/' && !items.any (·.contains c)
  | .anySequence, _ => false
  | .anyComponents, _ => false

/-- Whether a token stands for a run of characters. -/
def Token.isRun : Token → Bool
  | .anySequence | .anyComponents => true
  | _ => false

mutual

/-- Matches `cs` against the tokens; `afterSep` tells whether the previous character was `/`. -/
def matchTokens (afterSep : Bool) : List Token → List Char → Outcome
  | [], cs => if cs.isEmpty then .matched else .retry
  | t :: rest, cs =>
    if t.isRun then
      match matchTokens afterSep rest cs with
      | .retry => growRun (t == .anyComponents) rest afterSep cs
      | m => m
    else
      match cs with
      | [] => .exhausted
      | c :: more => if t.accepts c then matchTokens (c == '/') rest more else .retry
termination_by ts cs => (ts.length, cs.length, 1)

/-- Lets a run token take one more character of `cs` and retries the tokens after it. A run
of `**` only ends right after a separator; a run of `*` fails at a separator. When the text runs
out, the tokens after the run are matched against nothing. -/
def growRun (components : Bool) (rest : List Token) (afterSep : Bool) : List Char → Outcome
  | [] => matchTokens afterSep rest []
  | c :: more =>
    let sep := c == '/'
    if components && !sep then growRun components rest sep more
    else if !components && sep then .retry
    else
      match matchTokens sep rest more with
      | .retry => growRun components rest sep more
      | m => m
termination_by cs => (rest.length + 1, cs.length, 0)

end

def Pattern.matches (p : Pattern) (text : String) : Bool :=
  matchTokens true p.tokens text.toList == .matched

end ComponentSync.Glob
