import ComponentSync.Cluster.Exec
import Mathlib.Tactic.SplitIfs
/-! How a POSIX shell cuts a command line into tokens, and why a quoted value is one of them.
The reader follows the token rules of the shell language one character at a time: blanks end a
word, operators are read by longest match, a newline is a token of its own, single quotes keep
every character, a backslash outside quotes keeps the next one, and a comment runs to the end
of the line. Double quotes keep every character but a backslash before `$`, a backquote, a
double quote, a backslash or a newline; expansions are not looked into.

The main statement: `shellQuote s` reads back as the one word `s`, whatever `s` holds, so the
working directory of a command and the destination of an unpacked archive each stay one word
of the scripts they are put in, and no operator can come out of them. -/
namespace ComponentSync.Shell

/-- A token of a command line: a word with its quotes removed, or an operator. -/
inductive Token
  | word (text : String)
  | op (text : String)
  deriving DecidableEq, Repr

/-- The operators of the shell language: control operators and redirections. -/
def operators : List String :=
  ["&", "&&", "(", ")", ";", ";;", "|", "||", "<", ">", ">|", "<<", ">>", "<&", ">&", "<<-", "<>"]

/-- Whether the characters read so far can still grow into an operator. -/
def extendsOperator (text : List Char) : Bool :=
  operators.any fun o => text.isPrefixOf o.toList

/-- Where the reader is: outside quotes, inside single or double quotes, just after a
backslash outside or inside double quotes, in an operator, or in a comment. -/
inductive Mode
  | plain
  | single
  | double
  | escaped
  | doubleEscaped
  | operator (text : List Char)
  | comment
  deriving DecidableEq, Repr

/-- The state of the reader: the tokens read so far, the word being read (`none` between
words) and the mode. -/
structure Reader where
  tokens : List Token
  word : Option (List Char)
  mode : Mode
  deriving DecidableEq, Repr

namespace Reader

def start : Reader := ⟨[], none, .plain⟩

/-- Ends the word being read, if there is one. -/
def delimit (r : Reader) : Reader :=
  match r.word with
  | some w => { r with tokens := r.tokens ++ [.word (String.ofList w)], word := none }
  | none => r

/-- Adds a character to the word, which starts it if none is being read. -/
def push (r : Reader) (c : Char) (m : Mode) : Reader :=
  { r with word := some (r.word.getD [] ++ [c]), mode := m }

/-- A quote starts a word, which may stay empty. -/
def quote (r : Reader) (m : Mode) : Reader :=
  { r with word := some (r.word.getD []), mode := m }

/-- An unquoted newline ends the word and is a token itself. -/
def newline (r : Reader) : Reader :=
  { tokens := r.delimit.tokens ++ [.op "\n"], word := none, mode := .plain }

def plainChar (r : Reader) (c : Char) : Reader :=
  if c = '\'' then r.quote .single
  else if c = '"' then r.quote .double
  else if c = '\\' then { r with mode := .escaped }
  else if c = ' ' ∨ c = '\t' then { r.delimit with mode := .plain }
  else if c = '\n' then r.newline
  else if extendsOperator [c] then { r.delimit with mode := .operator [c] }
  else if c = '#' ∧ r.word = none then { r with mode := .comment }
  else r.push c .plain

/-- One character. An operator that the character cannot extend is a token, and the character
is then read outside quotes. -/
def step (r : Reader) (c : Char) : Reader :=
  match r.mode with
  | .plain => r.plainChar c
  | .single => if c = '\'' then { r with mode := .plain } else r.push c .single
  | .double =>
    if c = '"' then { r with mode := .plain }
    else if c = '\\' then { r with mode := .doubleEscaped }
    else r.push c .double
  | .escaped => if c = '\n' then { r with mode := .plain } else r.push c .plain
  | .doubleEscaped =>
    if c = '\n' then { r with mode := .double }
    else if c = '$' ∨ c = '`' ∨ c = '"' ∨ c = '\\' then r.push c .double
    else (r.push '\\' .double).push c .double
  | .operator text =>
    if extendsOperator (text ++ [c]) then { r with mode := .operator (text ++ [c]) }
    else plainChar { r with tokens := r.tokens ++ [.op (String.ofList text)], mode := .plain } c
  | .comment => if c = '\n' then r.newline else r

/-- The tokens once the input ends, or nothing when a quote is left open. A backslash at the
very end stands for itself. -/
def finish (r : Reader) : Option (List Token) :=
  match r.mode with
  | .plain | .comment => some r.delimit.tokens
  | .escaped => some (r.push '\\' .plain).delimit.tokens
  | .operator text => some (r.tokens ++ [.op (String.ofList text)])
  | .single | .double | .doubleEscaped => none

end Reader

/-- The tokens of a command line, or nothing when a quote is left open. -/
def tokens (line : String) : Option (List Token) :=
  (line.toList.foldl Reader.step Reader.start).finish

example : tokens "cd '/a b' && make" = some [.word "cd", .word "/a b", .op "&&", .word "make"] := by
  decide

example : tokens "a\\ b;c # d" = some [.word "a b", .op ";", .word "c"] := by decide

/-! ### Tokens read before a point stay as they are -/

namespace Reader

def after (pre : List Token) (r : Reader) : Reader :=
  { r with tokens := pre ++ r.tokens }

@[simp] theorem after_tokens (pre : List Token) (r : Reader) :
    (r.after pre).tokens = pre ++ r.tokens := rfl

@[simp] theorem after_word (pre : List Token) (r : Reader) : (r.after pre).word = r.word := rfl

@[simp] theorem after_mode (pre : List Token) (r : Reader) : (r.after pre).mode = r.mode := rfl

theorem plainChar_after (pre : List Token) (r : Reader) (c : Char) :
    (r.after pre).plainChar c = (r.plainChar c).after pre := by
  rcases r with ⟨toks, w, m⟩
  unfold plainChar
  simp only [after_word]
  cases w <;> split_ifs <;> simp_all [after, quote, newline, push, delimit]

theorem step_after (pre : List Token) (r : Reader) (c : Char) :
    (r.after pre).step c = (r.step c).after pre := by
  rcases r with ⟨toks, w, m⟩
  cases m
  case plain => exact plainChar_after pre _ c
  case operator text =>
    simp only [step, after_mode]
    split_ifs
    · rfl
    · rw [← plainChar_after]
      simp [after]
  case comment =>
    simp only [step, after_mode]
    split_ifs
    · cases w <;> simp [newline, after, delimit]
    · rfl
  all_goals
    simp only [step, after_mode]
    split_ifs <;> rfl

theorem foldl_after (pre : List Token) (cs : List Char) (r : Reader) :
    cs.foldl step (r.after pre) = (cs.foldl step r).after pre := by
  induction cs generalizing r with
  | nil => rfl
  | cons c cs ih => rw [List.foldl_cons, List.foldl_cons, step_after, ih]

theorem finish_after (pre : List Token) (r : Reader) :
    (r.after pre).finish = r.finish.map (pre ++ ·) := by
  rcases r with ⟨toks, w, m⟩
  cases m <;> simp [finish, after, delimit, push] <;> cases w <;> simp

theorem start_after (pre : List Token) : start.after pre = ⟨pre, none, .plain⟩ := by
  simp [start, after]

end Reader

/-- Once the reader stands between words outside quotes, the rest of a line is read as a line
of its own, after the tokens read so far. -/
theorem tokens_after (pre : List Token) (cs : List Char) :
    (cs.foldl Reader.step ⟨pre, none, .plain⟩).finish = (tokens (String.ofList cs)).map (pre ++ ·) := by
  rw [← Reader.start_after, Reader.foldl_after, Reader.finish_after, tokens, String.toList_ofList]

/-! ### Quoted text -/

/-- A character as it stands between single quotes: a quote closes them, is kept by a
backslash and opens them again. -/
def quotedChars (c : Char) : List Char :=
  if c = '\'' then ['\'', '\\', '\'', '\''] else [c]

/-- The characters of `shellQuote s`: an opening quote, the characters of `s` as they stand
between quotes, and a closing quote. -/
theorem shellQuote_toList (s : String) :
    (shellQuote s).toList = '\'' :: s.toList.flatMap quotedChars ++ ['\''] := by
  have hq : "'".toList = ['\''] := by decide
  have hc (c : Char) :
      (if c = '\'' then "'\\''" else String.singleton c).toList = quotedChars c := by
    by_cases h : c = '\''
    · subst h
      decide
    · simp [h, quotedChars]
  simp [shellQuote, hq, List.flatMap]
  exact congrArg List.flatten (List.map_congr_left fun c _ => hc c)

/-- Inside single quotes, a quoted text adds exactly its characters to the word: a quote of the
text closes the quotes, is kept by a backslash and opens them again. -/
theorem foldl_quoted (s : List Char) (toks : List Token) (w : List Char) :
    (s.flatMap quotedChars).foldl Reader.step ⟨toks, some w, .single⟩ =
      ⟨toks, some (w ++ s), .single⟩ := by
  induction s generalizing w with
  | nil => simp
  | cons c s ih =>
    rw [List.flatMap_cons, List.foldl_append]
    by_cases hc : c = '\''
    · subst hc
      simp [quotedChars, Reader.step, Reader.plainChar, Reader.push, Reader.quote, ih]
    · simp [quotedChars, hc, Reader.step, Reader.push, ih]

theorem foldl_shellQuote (s : String) (toks : List Token) (w : Option (List Char)) :
    (shellQuote s).toList.foldl Reader.step ⟨toks, w, .plain⟩ =
      ⟨toks, some (w.getD [] ++ s.toList), .plain⟩ := by
  rw [shellQuote_toList, List.foldl_append, List.foldl_cons]
  simp [Reader.step, Reader.plainChar, Reader.quote, foldl_quoted]

theorem tokens_shellQuote (s : String) : tokens (shellQuote s) = some [.word s] := by
  simp [tokens, Reader.start, foldl_shellQuote, Reader.finish, Reader.delimit]

/-! ### Scripts around a quoted text -/

/-- A character that neither ends a word nor starts a quote, an escape, an operator or a
comment. -/
def Ordinary (c : Char) : Prop :=
  c ∉ [' ', '\t', '\n', '\'', '"', '\\', '#'] ∧ extendsOperator [c] = false

theorem ordinary_of_isDigit {c : Char} (h : c.isDigit = true) : Ordinary c := by
  have hn := Char.isDigit_iff_toNat.mp h
  refine ⟨?_, ?_⟩
  · simp only [List.mem_cons, List.not_mem_nil, or_false, not_or]
    refine ⟨?_, ?_, ?_, ?_, ?_, ?_, ?_⟩ <;> rintro rfl <;> simp at hn
  · -- no operator holds a digit
    have hops : (operators.all fun o => o.toList.all fun d => !d.isDigit) = true := by decide
    simp only [extendsOperator, List.any_eq_false]
    intro o ho hpre
    obtain ⟨d, rest, hd⟩ : ∃ d rest, o.toList = d :: rest := by
      cases h' : o.toList with
      | nil => simp [h'] at hpre
      | cons d rest => exact ⟨d, rest, rfl⟩
    rw [hd, List.isPrefixOf_cons_cons] at hpre
    have hcd : c = d := by simpa using hpre
    have hdig := List.all_eq_true.mp (List.all_eq_true.mp hops o ho) d (by simp [hd])
    simp [← hcd, h] at hdig

theorem foldl_ordinary {cs : List Char} (hcs : ∀ c ∈ cs, Ordinary c) (toks : List Token)
    (w : List Char) :
    cs.foldl Reader.step ⟨toks, some w, .plain⟩ = ⟨toks, some (w ++ cs), .plain⟩ := by
  induction cs generalizing w with
  | nil => simp
  | cons c cs ih =>
    obtain ⟨hmem, hop⟩ := hcs c List.mem_cons_self
    simp only [List.mem_cons, List.not_mem_nil, or_false, not_or] at hmem
    obtain ⟨h1, h2, h3, h4, h5, h6, h7⟩ := hmem
    rw [List.foldl_cons]
    have hstep : Reader.step ⟨toks, some w, .plain⟩ c = ⟨toks, some (w ++ [c]), .plain⟩ := by
      simp [Reader.step, Reader.plainChar, Reader.push, h1, h2, h3, h4, h5, h6, h7, hop]
    rw [hstep, ih (fun d hd => hcs d (List.mem_cons_of_mem _ hd))]
    simp

theorem foldl_decimal (n : Nat) (toks : List Token) :
    (toString n).toList.foldl Reader.step ⟨toks, none, .plain⟩ =
      ⟨toks, some (toString n).toList, .plain⟩ := by
  have hdigits : (toString n).toList = Nat.toDigits 10 n := by simp [Nat.toString_eq_repr]
  have hdig : ∀ c ∈ (toString n).toList, c.isDigit = true := fun c hc =>
    Nat.isDigit_of_mem_toDigits (b := 10) (by decide) (by decide) (hdigits ▸ hc)
  obtain ⟨c, cs, hcs⟩ := List.exists_cons_of_ne_nil
    (show (toString n).toList ≠ [] by simp [Nat.toDigits_ne_nil])
  have hc := ordinary_of_isDigit (hdig c (by rw [hcs]; exact List.mem_cons_self))
  obtain ⟨hmem, hop⟩ := hc
  simp only [List.mem_cons, List.not_mem_nil, or_false, not_or] at hmem
  obtain ⟨h1, h2, h3, h4, h5, h6, h7⟩ := hmem
  rw [hcs, List.foldl_cons]
  have hstep : Reader.step ⟨toks, none, .plain⟩ c = ⟨toks, some [c], .plain⟩ := by
    simp [Reader.step, Reader.plainChar, Reader.push, h1, h2, h3, h4, h5, h6, h7, hop]
  rw [hstep, foldl_ordinary (fun d hd => ordinary_of_isDigit
    (hdig d (by rw [hcs]; exact List.mem_cons_of_mem _ hd)))]
  rfl

/-- The script of a command that changes directory first reads as `cd`, the directory as one
word, `&&`, and then the command's own tokens. -/
theorem tokens_cd_script (dir command : String) :
    tokens ("cd " ++ shellQuote dir ++ " && " ++ command) =
      (tokens command).map ([.word "cd", .word dir, .op "&&"] ++ ·) := by
  have hcd : "cd ".toList.foldl Reader.step Reader.start = ⟨[.word "cd"], none, .plain⟩ := by
    decide
  have hand (toks : List Token) (w : List Char) :
      " && ".toList.foldl Reader.step ⟨toks, some w, .plain⟩ =
        ⟨toks ++ [.word (String.ofList w), .op "&&"], none, .plain⟩ := by
    simp [Reader.step, Reader.plainChar, Reader.delimit, extendsOperator, operators]
  unfold tokens
  simp only [String.toList_append, List.foldl_append, hcd, foldl_shellQuote, hand,
    Option.getD_none, List.nil_append, String.ofList_toList]
  rw [tokens_after, String.ofList_toList]
  simp [tokens]

/-- The script that unpacks an archive reads as `mkdir -p d && head -c n | tar xzf - -C d`,
with the destination one word each time and the length in decimal. -/
theorem tokens_extract_script (dest : String) (len : Nat) :
    tokens ("mkdir -p " ++ shellQuote dest ++ " && head -c " ++ toString len ++
        " | tar xzf - -C " ++ shellQuote dest) =
      some [.word "mkdir", .word "-p", .word dest, .op "&&", .word "head", .word "-c",
        .word (toString len), .op "|", .word "tar", .word "xzf", .word "-", .word "-C",
        .word dest] := by
  have hmkdir : "mkdir -p ".toList.foldl Reader.step Reader.start =
      ⟨[.word "mkdir", .word "-p"], none, .plain⟩ := by
    decide
  have hhead (toks : List Token) (w : List Char) :
      " && head -c ".toList.foldl Reader.step ⟨toks, some w, .plain⟩ =
        ⟨toks ++ [.word (String.ofList w), .op "&&", .word "head", .word "-c"], none, .plain⟩ := by
    simp [Reader.step, Reader.plainChar, Reader.delimit, Reader.push, extendsOperator, operators]
  have htar (toks : List Token) (w : List Char) :
      " | tar xzf - -C ".toList.foldl Reader.step ⟨toks, some w, .plain⟩ =
        ⟨toks ++ [.word (String.ofList w), .op "|", .word "tar", .word "xzf", .word "-",
          .word "-C"], none, .plain⟩ := by
    simp [Reader.step, Reader.plainChar, Reader.delimit, Reader.push, extendsOperator, operators]
  unfold tokens
  simp only [String.toList_append, List.foldl_append, hmkdir, foldl_shellQuote, hhead, htar,
    foldl_decimal, Option.getD_none, List.nil_append, String.ofList_toList]
  simp [Reader.finish, Reader.delimit]

/-- Quoted values stay one word: `shellQuote s` reads as the single word `s`; a command run
from a working directory reads as `cd`, the directory, `&&` and the command's own tokens; and
the unpacking script reads as `mkdir -p d && head -c n | tar xzf - -C d` with the destination
one word each time. -/
theorem quoted_values_stay_one_word :
    (∀ s, tokens (shellQuote s) = some [.word s]) ∧
    (∀ command dir, ∃ script,
      CommandSpec.toArgv ⟨command, some dir⟩ = ["sh", "-c", script] ∧
      tokens script = (tokens command).map ([.word "cd", .word dir, .op "&&"] ++ ·)) ∧
    (∀ dest len, ∃ script, extractCommand dest len = ["sh", "-c", script] ∧
      tokens script = some [.word "mkdir", .word "-p", .word dest, .op "&&", .word "head",
        .word "-c", .word (toString len), .op "|", .word "tar", .word "xzf", .word "-",
        .word "-C", .word dest]) := by
  refine ⟨tokens_shellQuote, fun command dir => ⟨_, rfl, tokens_cd_script dir command⟩,
    fun dest len => ⟨_, rfl, ?_⟩⟩
  simpa [String.append_assoc] using tokens_extract_script dest len

end ComponentSync.Shell
