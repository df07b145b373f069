import ComponentSync.Proofs.YamlFetch
/-! The tokens of a block document written one entry per line: `key: value`, `key:` before a
nested block, and `- item`. Each line closes the blocks deeper than its indentation, and a key
deeper than the current block opens a mapping. The lemmas below follow the tokenizer through one
line at a time, from a cursor between lines to the next one. -/
namespace ComponentSync.Yaml

/-! ### Lines -/

/-- A scalar as a line writes it: plain, or in double quotes. -/
inductive Written
  | plain (text : String)
  | quoted (text : String)

namespace Written

def chars : Written → List Char
  | plain p => p.toList
  | quoted t => (doubleQuoted t).toList

def token : Written → TokenKind
  | plain p => .scalar p .plain
  | quoted t => .scalar t .doubleQuoted

def isPlain : Written → Bool
  | plain _ => true
  | quoted _ => false

/-- A plain scalar that is read back as written: it starts like a plain scalar, holds no blank or
line break, does not end with `:`, and its characters may stand in a text. -/
def Valid : Written → Prop
  | plain p => PlainText p ∧ (∃ c cs, p.toList = c :: cs ∧ PlainStart c) ∧
      ∀ c ∈ p.toList, isPrintable c = true
  | quoted _ => True

end Written

/-- A key written plain that is read back as written, does not start with `.`, and is short
enough to stay a possible key up to its `:`. -/
structure KeyText (k : String) : Prop where
  valid : (Written.plain k).Valid
  noDot : k.toList.head? ≠ some '.'
  short : utf8Length k.toList ≤ 1024

/-- What a line of a block document holds after its indentation. -/
inductive Body
  | pair (key : String) (value : Written)
  | opens (key : String)
  | item (value : Written)

def Body.chars : Body → List Char
  | .pair k v => k.toList ++ ':' :: ' ' :: v.chars
  | .opens k => k.toList ++ [':']
  | .item v => '-' :: ' ' :: v.chars

structure Line where
  column : Nat
  body : Body

def Line.chars (l : Line) : List Char := List.replicate l.column ' ' ++ l.body.chars ++ ['\n']

/-! ### The indentation stack -/

/-- An indentation stack as block context keeps it: columns above the `-1` of the document. -/
def StackOk (S : List Int) : Prop := ∃ xs, S = xs ++ [-1] ∧ ∀ x ∈ xs, 0 ≤ x

theorem StackOk.split {S : List Int} (h : StackOk S) {column : Int} (hc : -1 ≤ column) :
    ∃ top keep, closedTo column S = top :: keep ∧ top ≤ column ∧ StackOk (top :: keep) := by
  obtain ⟨xs, rfl, hxs⟩ := h
  induction xs with
  | nil => exact ⟨-1, [], by simp [closedTo, show ¬column < -1 by omega], hc, [], rfl, by simp⟩
  | cons x xs ih =>
    by_cases hx : column < x
    · obtain ⟨top, keep, h1, h2, h3⟩ := ih (fun y hy => hxs y (by simp [hy]))
      exact ⟨top, keep, by simpa [closedTo, hx] using h1, h2, h3⟩
    · exact ⟨x, xs ++ [-1], by simp [closedTo, hx], by omega, ⟨x :: xs, rfl, hxs⟩⟩

theorem StackOk.push {S : List Int} (h : StackOk S) {column : Int} (hc : 0 ≤ column) :
    StackOk (column :: S) := by
  obtain ⟨xs, rfl, hxs⟩ := h
  exact ⟨column :: xs, rfl, by simp [hc]; exact hxs⟩

/-! ### Tokens of lines -/

/-- Whether a key line opens a mapping: its column lies deeper than the block left open once the
deeper ones are closed. -/
def Line.opens (S : List Int) (l : Line) : Bool := (closedTo l.column S).headD (-1) < l.column

def Body.tokens (opened : Bool) : Body → List TokenKind
  | .pair k v =>
    (if opened then [.blockMappingStart] else []) ++ [.key, .scalar k .plain, .value, v.token]
  | .opens k => (if opened then [.blockMappingStart] else []) ++ [.key, .scalar k .plain, .value]
  | .item v => [.blockEntry, v.token]

/-- The tokens of a line read with the indentation stack `S`: the ends of the blocks it closes,
then its own. -/
def Line.tokens (S : List Int) (l : Line) : List TokenKind :=
  List.replicate (closings l.column S).length .blockEnd ++ l.body.tokens (l.opens S)

def Line.stack (S : List Int) (l : Line) : List Int :=
  if l.opens S then l.column :: closedTo l.column S else closedTo l.column S

/-- The tokens of lines read with the indentation stack `S`, up to the end of the stream, which
closes every open block. -/
def linesTokens : List Int → List Line → List TokenKind
  | S, [] => List.replicate (S.length - 1) .blockEnd ++ [.streamEnd]
  | S, l :: ls => l.tokens S ++ linesTokens (l.stack S) ls

/-- A line the tokenizer reads as written, after the stack `S` and before the lines `next`: keys
and plain scalars read back as written, an entry stands at the column of its block, and a plain
scalar is not continued by a deeper line. -/
def Line.Fits (S : List Int) (l : Line) (next : List Line) : Prop :=
  match l.body with
  | .pair k v => KeyText k ∧ v.Valid ∧ (v.isPlain = true → ∀ n ∈ next.head?, n.column ≤ l.column)
  | .opens k => KeyText k
  | .item v => (closedTo l.column S).head? = some (l.column : Int) ∧ v.Valid ∧
      (v.isPlain = true → ∀ n ∈ next.head?, n.column ≤ l.column)

def LinesFit : List Int → List Line → Prop
  | _, [] => True
  | S, l :: ls => l.Fits S ls ∧ LinesFit (l.stack S) ls

/-! ### Between lines -/

/-- A cursor between lines, where the parser's next request fetches the next line's first token:
in block context, nothing queued, no possible key, and `S` as its indentation stack. -/
structure Between (s : Cursor) (S : List Int) : Prop where
  flow : s.flowLevel = 0
  started : s.started = true
  slot : ∃ k, s.keys = #[k] ∧ k.possible = false
  queue : s.queue = []
  stack : s.indent :: s.indents = S

/-- Where a cursor between lines stands before the lines `ls`: before the line feed that ends the
previous line, or, after a plain scalar, past the next line's indentation. -/
inductive Before (s : Cursor) : List Line → Prop
  | feed {ls : List Line} : s.rest = '\n' :: ls.flatMap Line.chars → Before s ls
  | line {l : Line} {ls : List Line} : s.rest = l.body.chars ++ '\n' :: ls.flatMap Line.chars →
      s.mark.column = l.column → s.keyAllowed = true → Before s (l :: ls)
  | stop : s.rest = [] → s.mark.column = 0 → Before s []

/-- The cursor past a line feed and the next line's indentation. -/
def Cursor.toLine (s : Cursor) (n : Nat) : Cursor :=
  { s.newline with keyAllowed := true }.past (List.replicate n ' ')

theorem Between.toLine {s : Cursor} {S : List Int} (h : Between s S) (n : Nat) :
    Between (s.toLine n) S :=
  ⟨by simp [Cursor.toLine, h.flow], by simp [Cursor.toLine, h.started],
    by simpa [Cursor.toLine] using h.slot, by simp [Cursor.toLine, h.queue],
    by simpa [Cursor.toLine] using h.stack⟩

theorem Between.dropStaleKeys {s : Cursor} {S : List Int} (h : Between s S) :
    Runs dropStaleKeys s () s := by
  obtain ⟨k, hk, hp⟩ := h.slot
  exact runs_dropStaleKeys_keep hk (by simp [hp])

/-- A cursor at the start of a line's body, where a key may start. -/
structure AtLine (s : Cursor) (l : Line) (ls : List Line) : Prop where
  rest : s.rest = l.body.chars ++ '\n' :: ls.flatMap Line.chars
  column : s.mark.column = l.column
  allowed : s.keyAllowed = true

theorem Line.flatMap_chars_cons (l : Line) (ls : List Line) :
    (l :: ls).flatMap Line.chars =
      List.replicate l.column ' ' ++ (l.body.chars ++ '\n' :: ls.flatMap Line.chars) := by
  simp [Line.chars]

theorem PlainStart.startsToken {c : Char} (h : PlainStart c) (r : List Char) :
    StartsToken (c :: r) := by
  unfold PlainStart at h
  simp only [Bool.or_eq_true, beq_iff_eq] at h
  intro d hd
  simp only [List.head?_cons, Option.mem_def, Option.some.injEq] at hd
  subst hd
  rcases h with ((h | rfl) | rfl) | rfl
  · refine ⟨?_, ?_, ?_, ?_, ?_⟩
    all_goals first
      | (rintro rfl; simp at h)
      | (simp only [isBreak, Bool.or_eq_false_iff, beq_eq_false_iff_ne]
         and_intros <;> rintro rfl <;> simp at h)
  all_goals decide

theorem Line.startsToken {S : List Int} {l : Line} {ls : List Line} (h : l.Fits S ls)
    (r : List Char) : StartsToken (l.body.chars ++ r) := by
  obtain ⟨column, body⟩ := l
  cases body with
  | pair k v =>
    obtain ⟨c, cs, hcs, hc⟩ := h.1.valid.2.1
    simpa [Body.chars, hcs] using hc.startsToken _
  | opens k =>
    obtain ⟨c, cs, hcs, hc⟩ := h.valid.2.1
    simpa [Body.chars, hcs] using hc.startsToken _
  | item v =>
    intro d hd
    simp [Body.chars] at hd
    subst hd
    decide

theorem Cursor.rest_toLine {s : Cursor} {n : Nat} {r : List Char}
    (h : s.rest = '\n' :: (List.replicate n ' ' ++ r)) : (s.toLine n).rest = r :=
  Cursor.rest_past (Cursor.rest_newline h)

/-- Between lines, the line feed and the indentation before the next line are skipped, unless a
plain scalar skipped them already. -/
theorem Between.skipToLine {s : Cursor} {S : List Int} {l : Line} {ls : List Line}
    (h : Between s S) (hb : Before s (l :: ls)) (hf : l.Fits S ls) :
    ∃ L, Runs skipToToken s () L ∧ Between L S ∧ AtLine L l ls ∧
      (L = s ∨ L = s.toLine l.column) := by
  have hr := Line.startsToken hf ('\n' :: ls.flatMap Line.chars)
  cases hb with
  | feed h1 =>
    rw [Line.flatMap_chars_cons] at h1
    refine ⟨s.toLine l.column, runs_skipToToken_newline h1 hr h.flow, h.toLine _,
      ⟨Cursor.rest_toLine h1, by simp [Cursor.toLine], by simp [Cursor.toLine]⟩, .inr rfl⟩
  | line h1 hcol ha =>
    have hrun := runs_skipToToken_inline (n := 0) (by simpa using h1) hr
    rw [List.replicate_zero, Cursor.past_nil] at hrun
    exact ⟨s, hrun, h, ⟨h1, hcol, ha⟩, .inl rfl⟩

/-! ### The first token of a line -/

/-- The cursor after a key's scalar is fetched at the start of its line: the blocks deeper than
the line are closed, the key is recorded as possible, and its scalar is queued. -/
def Cursor.keyFetched (s : Cursor) (k : String) : Cursor :=
  let s₁ := s.closeTo s.mark.column
  { ({ s₁ with keys := #[s₁.keyHere], keyAllowed := false } : Cursor).past k.toList with
    queue := s₁.queue ++ [⟨.scalar k .plain, s.mark, (s.past k.toList).mark⟩] }

/-- The cursor after the `-` of an entry is fetched at the start of its line. -/
def Cursor.entryFetched (s : Cursor) : Cursor :=
  let s₁ := s.closeTo s.mark.column
  { s₁.past ['-'] with
    keyAllowed := true
    queue := s₁.queue ++ [⟨.blockEntry, s.mark, (s.past ['-']).mark⟩] }

/-- The cursor after the end of the stream is fetched, every block closed. -/
def Cursor.endFetched (s : Cursor) : Cursor :=
  let s₁ := (s.closeTo s.mark.column).closeTo (-1)
  { s₁ with queue := s₁.queue ++ [⟨.streamEnd, s.mark, s.mark⟩], keyAllowed := false }

@[simp] theorem Cursor.closeTo_rest (s : Cursor) (c : Int) : (s.closeTo c).rest = s.rest := rfl
@[simp] theorem Cursor.closeTo_mark (s : Cursor) (c : Int) : (s.closeTo c).mark = s.mark := rfl
@[simp] theorem Cursor.closeTo_keys (s : Cursor) (c : Int) : (s.closeTo c).keys = s.keys := rfl
@[simp] theorem Cursor.closeTo_flowLevel (s : Cursor) (c : Int) :
    (s.closeTo c).flowLevel = s.flowLevel := rfl
@[simp] theorem Cursor.closeTo_keyAllowed (s : Cursor) (c : Int) :
    (s.closeTo c).keyAllowed = s.keyAllowed := rfl
@[simp] theorem Cursor.closeTo_started (s : Cursor) (c : Int) :
    (s.closeTo c).started = s.started := rfl

theorem Cursor.ahead_closeTo (s : Cursor) (c : Int) (k : Nat) : (s.closeTo c).ahead k = s.ahead k :=
  rfl

theorem runs_fetchToken_keyLine {s : Cursor} {k0 : SimpleKey} {k : String} {r : List Char}
    (hk : KeyText k) (hrest : s.rest = k.toList ++ ':' :: r)
    (hr : isBlankOrEnd (r.getD 0 endChar) = true) (hflow : s.flowLevel = 0)
    (hslot : s.keys = #[k0]) (hp : k0.possible = false) (ha : s.keyAllowed = true) :
    Runs fetchToken (s.closeTo s.mark.column) () (s.keyFetched k) := by
  obtain ⟨c, cs, hcs, hc⟩ := hk.valid.2.1
  have h0 : s.ahead 0 = c := s.ahead_zero (by rw [hrest, hcs]; rfl)
  have hdot : c ≠ '.' := fun h => hk.noDot (by simp [hcs, h])
  have hdash : c ≠ '-' := fun h => hc.not_indicator (by simp [h, indicatorChars])
  have hdm : s.atDocumentMarker = false := by simp [Cursor.atDocumentMarker, h0, hdot, hdash]
  refine runs_fetchToken_plain (by rw [Cursor.ahead_closeTo]; exact h0) hc hdm hflow ?_
  refine runs_fetchKeyable (runs_saveKey (by simpa using hslot) hp (by simpa using ha)) ?_
  exact runs_scanPlain_key hk.valid.1 hrest hr hflow hdm

theorem runs_fetchToken_entryLine {s : Cursor} {k0 : SimpleKey} {r : List Char}
    (hrest : s.rest = '-' :: ' ' :: r) (hflow : s.flowLevel = 0) (hslot : s.keys = #[k0])
    (hp : k0.possible = false) (ha : s.keyAllowed = true)
    (htop : (s.closeTo s.mark.column).indent = s.mark.column) :
    Runs fetchToken (s.closeTo s.mark.column) () s.entryFetched := by
  have h0 : s.ahead 0 = '-' := s.ahead_zero hrest
  have h1 : s.ahead 1 = ' ' := s.ahead_one hrest
  have hdm : s.atDocumentMarker = false := by simp [Cursor.atDocumentMarker, h1]
  refine runs_fetchToken_blockEntry (by rw [Cursor.ahead_closeTo]; exact h0)
    (by rw [Cursor.ahead_closeTo, h1]; rfl) hdm ?_
  exact runs_fetchBlockEntry hflow ha htop hslot hp hrest

theorem runs_fetchToken_atEnd {s : Cursor} {k0 : SimpleKey} (hrest : s.rest = [])
    (hcol : s.mark.column = 0) (hflow : s.flowLevel = 0) (hslot : s.keys = #[k0])
    (hp : k0.possible = false) (hS : StackOk (s.indent :: s.indents)) :
    Runs fetchToken (s.closeTo s.mark.column) () s.endFetched := by
  obtain ⟨top, keep, hsplit, -, hok⟩ := hS.split (show (-1 : Int) ≤ s.mark.column by omega)
  obtain ⟨top', keep', hsplit', -, -⟩ := hok.split (Int.le_refl (-1))
  refine runs_fetchToken_end (Cursor.ahead_end hrest 0) ?_
  refine runs_fetchStreamEnd hcol hflow ?_ hslot hp
  simp [Cursor.closeTo, hsplit, hsplit']

/-- A cursor at the start of the body of the first of the lines `ls`, or at the end of the text. -/
def AtLines (s : Cursor) : List Line → Prop
  | [] => s.rest = [] ∧ s.mark.column = 0
  | l :: ls => AtLine s l ls

/-- The cursor after the first token of the lines `ls` is fetched from the start of the first. -/
def Cursor.lineFetched (s : Cursor) : List Line → Cursor
  | [] => s.endFetched
  | l :: _ =>
    match l.body with
    | .pair k _ => s.keyFetched k
    | .opens k => s.keyFetched k
    | .item _ => s.entryFetched

theorem Line.body_chars_key {l : Line} (ls : List Line) {k : String} {v : Written}
    (h : l.body = .pair k v ∨ l.body = .opens k) :
    ∃ r, l.body.chars ++ '\n' :: ls.flatMap Line.chars = k.toList ++ ':' :: r ∧
      isBlankOrEnd (r.getD 0 endChar) = true := by
  rcases h with h | h <;> rw [h]
  · exact ⟨' ' :: (v.chars ++ '\n' :: ls.flatMap Line.chars), by simp [Body.chars], rfl⟩
  · exact ⟨'\n' :: ls.flatMap Line.chars, by simp [Body.chars], rfl⟩

theorem runs_fetchToken_lines {s : Cursor} {S : List Int} {k0 : SimpleKey} {ls : List Line}
    (hS : StackOk S) (hstack : s.indent :: s.indents = S) (hflow : s.flowLevel = 0)
    (hslot : s.keys = #[k0]) (hp : k0.possible = false) (hat : AtLines s ls)
    (hf : LinesFit S ls) :
    Runs fetchToken (s.closeTo s.mark.column) () (s.lineFetched ls) := by
  cases ls with
  | nil => exact runs_fetchToken_atEnd hat.1 hat.2 hflow hslot hp (hstack ▸ hS)
  | cons l ls =>
    obtain ⟨column, body⟩ := l
    obtain ⟨hrest, hcol, ha⟩ := hat
    cases body with
    | pair k v =>
      obtain ⟨r, hr, hb⟩ := Line.body_chars_key ls (l := ⟨column, .pair k v⟩) (.inl rfl)
      exact runs_fetchToken_keyLine hf.1.1 (hrest.trans hr) hb hflow hslot hp ha
    | opens k =>
      obtain ⟨r, hr, hb⟩ := Line.body_chars_key ls (v := .plain "") (l := ⟨column, .opens k⟩)
        (.inr rfl)
      exact runs_fetchToken_keyLine hf.1 (hrest.trans hr) hb hflow hslot hp ha
    | item v =>
      have htop : (s.closeTo s.mark.column).indent = s.mark.column := by
        have h1 := hf.1.1
        simp only at hcol
        simp only [Cursor.closeTo, hstack, hcol]
        rw [List.head?_eq_some_iff] at h1
        obtain ⟨t, ht⟩ := h1
        rw [ht]
        rfl
      exact runs_fetchToken_entryLine hrest hflow hslot hp ha htop

/-! ### A token put back -/

/-- The cursor with a token put back at the head of its queue, as if not taken yet. -/
def Cursor.pushFront (s : Cursor) (t : Token) : Cursor :=
  { s with queue := t :: s.queue, taken := s.taken - 1 }

theorem Cursor.pushFront_skipped {s : Cursor} {t : Token} (h : 0 < s.taken) :
    (s.pushFront t).skipped = s := by
  cases s
  simp only [Cursor.pushFront, Cursor.skipped, List.drop_one, List.tail_cons, Cursor.mk.injEq,
    and_true, true_and] at h ⊢
  omega

theorem Cursor.keyFetched_pushFront {s : Cursor} {t : Token} (k : String) (h : 0 < s.taken) :
    (s.pushFront t).keyFetched k = (s.keyFetched k).pushFront t := by
  simp only [Cursor.keyFetched, Cursor.pushFront, Cursor.keyHere, Cursor.past, Cursor.closeTo,
    Cursor.blockEnds, List.cons_append, List.length_cons, List.length_append,
    List.length_replicate, Cursor.mk.injEq, true_and, and_true]
  have hn : ∀ a : Nat, s.taken - 1 + (a + 1) = s.taken + a := fun a => by omega
  rw [hn]

theorem Cursor.entryFetched_pushFront (s : Cursor) (t : Token) :
    (s.pushFront t).entryFetched = s.entryFetched.pushFront t := rfl

theorem Cursor.endFetched_pushFront (s : Cursor) (t : Token) :
    (s.pushFront t).endFetched = s.endFetched.pushFront t := rfl

theorem Cursor.lineFetched_pushFront {s : Cursor} {t : Token} (ls : List Line) (h : 0 < s.taken) :
    (s.pushFront t).lineFetched ls = (s.lineFetched ls).pushFront t := by
  cases ls with
  | nil => exact Cursor.endFetched_pushFront s t
  | cons l ls =>
    obtain ⟨column, body⟩ := l
    cases body with
    | pair k v => exact Cursor.keyFetched_pushFront k h
    | opens k => exact Cursor.keyFetched_pushFront k h
    | item v => exact Cursor.entryFetched_pushFront s t

/-! ### The first fetch of a line -/

theorem StackOk.closedTo_ne_nil {S : List Int} (h : StackOk S) (column : Nat) :
    closedTo column S ≠ [] := by
  obtain ⟨top, keep, hsplit, -, -⟩ := h.split (show (-1 : Int) ≤ column by omega)
  simp [hsplit]

/-- The column of the first of the lines `ls`, or `0` at the end of the text. -/
def firstColumn (ls : List Line) : Nat := (ls.head?.map Line.column).getD 0

/-- From between lines, the blanks and the line feed before the next line (or the end of the
text) are skipped, unless a plain scalar skipped them already. -/
theorem Between.skip {s : Cursor} {S : List Int} {ls : List Line} (h : Between s S)
    (hb : Before s ls) (hf : LinesFit S ls) :
    ∃ L, Runs skipToToken s () L ∧ Between L S ∧ AtLines L ls ∧
      (L = s ∨ L = s.toLine (firstColumn ls)) := by
  cases ls with
  | nil =>
    cases hb with
    | feed h1 =>
      have hrun := runs_skipToToken_newline (n := 0) (r := []) (by simpa using h1)
        (by intro c hc; simp at hc) h.flow
      exact ⟨s.toLine 0, hrun, h.toLine 0,
        ⟨Cursor.rest_toLine (by simpa using h1), by simp [Cursor.toLine]⟩, .inr rfl⟩
    | stop h1 h2 =>
      have hrun := runs_skipToToken_inline (n := 0) (r := []) (by simpa using h1)
        (by intro c hc; simp at hc)
      rw [List.replicate_zero, Cursor.past_nil] at hrun
      exact ⟨s, hrun, h, ⟨h1, h2⟩, .inl rfl⟩
  | cons l ls =>
    obtain ⟨L, hrun, hL, hat, hLs⟩ := h.skipToLine hb hf.1
    exact ⟨L, hrun, hL, hat, hLs⟩

theorem Between.firstFetch {s : Cursor} {S : List Int} {ls : List Line} (h : Between s S)
    (hS : StackOk S) (hb : Before s ls) (hf : LinesFit S ls) :
    ∃ L, Runs fetchNextToken s () (L.lineFetched ls) ∧ Between L S ∧ AtLines L ls ∧
      (L = s ∨ L = s.toLine (firstColumn ls)) := by
  obtain ⟨L, hskip, hL, hat, hLs⟩ := h.skip hb hf
  obtain ⟨k0, hk0, hp0⟩ := hL.slot
  refine ⟨L, ?_, hL, hat, hLs⟩
  refine runs_fetchNextToken h.started hskip hL.dropStaleKeys hL.flow ?_ ?_
  · rw [hL.stack]
    exact hS.closedTo_ne_nil _
  · exact runs_fetchToken_lines hS hL.stack hL.flow hk0 hp0 hat hf

/-! ### The tokens of a line -/

theorem Cursor.blockEnds_kinds (s : Cursor) (n : Nat) :
    (s.blockEnds n).map Token.kind = List.replicate n .blockEnd := by
  simp [Cursor.blockEnds]

theorem closings_neg_one {xs : List Int} (h : ∀ x ∈ xs, 0 ≤ x) : closings (-1) (xs ++ [-1]) = xs := by
  induction xs with
  | nil => simp [closings]
  | cons x xs ih =>
    have hx : (-1 : Int) < x := by have := h x (by simp); omega
    simp only [closings, List.cons_append, List.takeWhile_cons, hx, decide_true, if_true]
    exact congrArg (x :: ·) (ih fun y hy => h y (by simp [hy]))

/-- At the end of the text every block above the bottom of the stack closes: first those deeper
than the last line's column `0`, then the rest. -/
theorem StackOk.closings_end {S : List Int} (h : StackOk S) :
    (closings 0 S).length + (closings (-1) (closedTo 0 S)).length = S.length - 1 := by
  obtain ⟨xs, rfl, hxs⟩ := h
  induction xs with
  | nil => simp [closings, closedTo]
  | cons x xs ih =>
    have hx0 := hxs x (by simp)
    by_cases hx : (0 : Int) < x
    · have h1 : closings 0 ((x :: xs) ++ [-1]) = x :: closings 0 (xs ++ [-1]) := by
        simp [closings, hx]
      have h2 : closedTo 0 ((x :: xs) ++ [-1]) = closedTo 0 (xs ++ [-1]) := by
        simp [closedTo, hx]
      have := ih fun y hy => hxs y (by simp [hy])
      simp only [h1, h2, List.length_cons, List.length_append] at this ⊢
      omega
    · have h1 : closings 0 ((x :: xs) ++ [-1]) = [] := by simp [closings, hx]
      have h2 : closedTo 0 ((x :: xs) ++ [-1]) = (x :: xs) ++ [-1] := by simp [closedTo, hx]
      rw [h1, h2, closings_neg_one hxs]
      simp

theorem yields_end {s : Cursor} {S : List Int} (hS : StackOk S) (h : Between s S)
    (hb : Before s []) : Yields 2 s (linesTokens S []) := by
  obtain ⟨L, hfetch, hL, hat, -⟩ := h.firstFetch hS hb trivial
  obtain ⟨k0, hk0, hp0⟩ := hL.slot
  refine Yields.fetch (runs_needsMore_empty h.queue) hfetch ?_
  obtain ⟨top, keep, hsplit, -, -⟩ := hS.split (show (-1 : Int) ≤ 0 by omega)
  have hcol : L.mark.column = 0 := hat.2
  have hq : L.endFetched.queue = (L.blockEnds (closings 0 S).length ++
      L.blockEnds (closings (-1) (closedTo 0 S)).length ++ [⟨.streamEnd, L.mark, L.mark⟩]) ++ [] := by
    simp [Cursor.endFetched, Cursor.closeTo, hL.queue, hL.stack, hcol, hsplit, Cursor.blockEnds]
  have hkinds : (L.blockEnds (closings 0 S).length ++
      L.blockEnds (closings (-1) (closedTo 0 S)).length ++
      ([⟨.streamEnd, L.mark, L.mark⟩] : List Token)).map Token.kind ++ [] = linesTokens S [] := by
    simp only [List.map_append, Cursor.blockEnds_kinds, linesTokens, List.append_nil,
      ← hS.closings_end, List.replicate_append_replicate]
    rfl
  rw [← hkinds]
  exact Yields.queued_ne hq (by simpa [Cursor.lineFetched, Cursor.endFetched] using hk0) (by simp)
    (.inl hp0) trivial

@[simp] theorem Cursor.keyFetched_taken (s : Cursor) (k : String) :
    (s.keyFetched k).taken = s.taken := rfl

@[simp] theorem Cursor.keyFetched_flowLevel (s : Cursor) (k : String) :
    (s.keyFetched k).flowLevel = s.flowLevel := rfl

@[simp] theorem Cursor.keyFetched_started (s : Cursor) (k : String) :
    (s.keyFetched k).started = s.started := rfl

theorem Cursor.rest_keyFetched {s : Cursor} {k : String} {r : List Char}
    (h : s.rest = k.toList ++ r) : (s.keyFetched k).rest = r :=
  Cursor.rest_past (s := ({ s.closeTo s.mark.column with keys := _, keyAllowed := false } : Cursor))
    h

theorem Cursor.closeTo_eq_self {s : Cursor} {column : Int} (h : ¬column < s.indent) :
    s.closeTo column = s := by
  cases s
  simp_all [Cursor.closeTo, closings, closedTo, Cursor.blockEnds]

/-- A key line: after the ends of the blocks it closes come the start of a mapping when the key
lies deeper than the open block, the key token, the key's scalar and the `:`; the cursor is then
past the `:`, with the line's block open. -/
theorem yields_keyPart {s : Cursor} {S : List Int} {l : Line} {ls : List Line} {k : String}
    {r : List Char} {ks : List TokenKind} (hS : StackOk S) (h : Between s S)
    (hb : Before s (l :: ls)) (hf : LinesFit S (l :: ls)) (hk : KeyText k)
    (hfetched : ∀ L : Cursor, L.lineFetched (l :: ls) = L.keyFetched k)
    (hchars : l.body.chars = k.toList ++ ':' :: r)
    (hr : isBlankOrEnd ((r ++ '\n' :: ls.flatMap Line.chars).getD 0 endChar) = true)
    (hy : ∀ H : Cursor, Between H (l.stack S) → H.rest = r ++ '\n' :: ls.flatMap Line.chars →
      H.keyAllowed = false → H.indent = l.column → H.indent ≤ H.mark.column → Yields 15 H ks) :
    Yields 2 s (List.replicate (closings l.column S).length .blockEnd ++
      ((if l.opens S then [.blockMappingStart] else []) ++ ([.key, .scalar k .plain, .value] ++
        ks))) := by
  obtain ⟨L, hfetch, hL, hat, -⟩ := h.firstFetch hS hb hf
  rw [hfetched] at hfetch
  refine Yields.fetch (runs_needsMore_empty h.queue) hfetch ?_
  obtain ⟨k0, hk0, hp0⟩ := hL.slot
  have hc : L.mark.column = l.column := hat.column
  obtain ⟨top, keep, hsplit, htop, -⟩ := hS.split (show (-1 : Int) ≤ l.column by omega)
  have hrestL : L.rest = k.toList ++ ':' :: (r ++ '\n' :: ls.flatMap Line.chars) := by
    rw [hat.rest, hchars]
    simp
  -- the key's scalar is queued behind the ends of the blocks the line closes
  let n := (closings l.column S).length
  let K := (L.closeTo L.mark.column).keyHere
  let sc : Token := ⟨.scalar k .plain, L.mark, (L.past k.toList).mark⟩
  have hq : (L.keyFetched k).queue = L.blockEnds n ++ [sc] := by
    simp [Cursor.keyFetched, Cursor.closeTo, hL.queue, hL.stack, hc, n, sc]
  have hkeys : (L.keyFetched k).keys = #[K] := rfl
  have hKn : K.tokenNumber = L.taken + n := by
    simp [K, Cursor.keyHere, Cursor.closeTo, hL.queue, hL.stack, hc, n, Cursor.blockEnds]
  have hlive : K.staleAt (L.keyFetched k) = false := by
    have := hk.short
    simp [SimpleKey.staleAt, K, Cursor.keyHere, Cursor.keyFetched, Cursor.closeTo]
    omega
  rw [show List.replicate (closings l.column S).length TokenKind.blockEnd =
    (L.blockEnds n).map Token.kind from (Cursor.blockEnds_kinds L n).symm]
  refine Yields.queued (m := 1) hq hkeys (.inr ⟨hlive, by simp [hKn, Cursor.blockEnds]⟩)
    (by omega) ?_
  -- the `:` puts the key token before the scalar
  let F₁ : Cursor := { L.keyFetched k with queue := [sc], taken := L.taken + n }
  have hF₁ : ({ L.keyFetched k with
      queue := [sc]
      taken := (L.keyFetched k).taken + (L.blockEnds n).length } : Cursor) = F₁ := by
    simp [F₁, Cursor.blockEnds]
  rw [hF₁]
  have hrest₁ : F₁.rest = ':' :: (r ++ '\n' :: ls.flatMap Line.chars) :=
    Cursor.rest_keyFetched hrestL
  have hkeys₁ : F₁.keys = #[K] := rfl
  have hlive₁ : K.staleAt F₁ = false := hlive
  have hind₁ : F₁.indent = top := by
    simp [F₁, Cursor.keyFetched, Cursor.closeTo, hL.stack, hc, hsplit]
  have hinds₁ : F₁.indents = keep := by
    simp [F₁, Cursor.keyFetched, Cursor.closeTo, hL.stack, hc, hsplit]
  have hmore : Runs needsMore F₁ true F₁ := by
    have hrun := runs_needsMore_live (by simp [F₁]) hkeys₁ hlive₁
    have hK : (K.possible && K.tokenNumber == F₁.taken) = true := by
      simp [K, Cursor.keyHere, F₁]
      simp [Cursor.closeTo, hL.queue, hL.stack, hc, n, Cursor.blockEnds]
    rwa [hK] at hrun
  have hvalue : Runs fetchNextToken F₁ () (F₁.valueFetched K) := by
    have hskip := runs_skipToToken_inline (s := F₁) (n := 0) (by simpa using hrest₁)
      (by intro c hc; simp at hc; subst hc; decide)
    rw [List.replicate_zero, Cursor.past_nil] at hskip
    refine runs_fetchNextToken (by simp [F₁, hL.started]) hskip
      (runs_dropStaleKeys_keep hkeys₁ (by simp [hlive₁])) (by simp [F₁, hL.flow]) ?_ ?_
    · simp [closedTo, hind₁, hinds₁, show ¬((F₁.mark.column : Int) < top) by
        simp [F₁, Cursor.keyFetched]; omega]
    · rw [Cursor.closeTo_eq_self (by rw [hind₁]; simp [F₁, Cursor.keyFetched, hc]; omega)]
      refine runs_fetchToken_value (F₁.ahead_zero hrest₁) ?_ ?_
      · rw [F₁.ahead_eq, hrest₁]
        simpa using hr
      · exact runs_fetchValue_key hkeys₁ rfl (by simp [hKn, F₁]) (by simp [F₁, hL.flow]) hrest₁
  refine Yields.fetch (m := 0) hmore hvalue ?_
  -- the start of a mapping (if any), the key token, the scalar and the `:` are all sure
  have hKc : (K.mark.column : Int) = l.column := by simp [K, Cursor.keyHere, hc]
  have hop : l.opens S = decide (top < l.column) := by simp [Line.opens, hsplit]
  let G := F₁.valueFetched K
  have hkinds : G.queue.map Token.kind =
      (if l.opens S then [.blockMappingStart] else []) ++ [.key, .scalar k .plain, .value] := by
    have hq₁ : F₁.queue = [sc] := rfl
    by_cases ht : top < l.column
    · simp [G, Cursor.valueFetched, hind₁, hKc, ht, hop, hq₁, sc]
    · simp [G, Cursor.valueFetched, hind₁, hKc, ht, hop, hq₁, sc]
  rw [← List.append_assoc, ← hkinds]
  refine Yields.queued_ne (List.append_nil _).symm (rfl : G.keys = #[{ K with possible := false }])
    (by simp [G, Cursor.valueFetched]) (.inl rfl) ?_
  have hGi : G.indent = l.column := by
    by_cases ht : top < l.column
    · simp [G, Cursor.valueFetched, hind₁, hKc, ht]
    · simp [G, Cursor.valueFetched, hind₁, hKc, ht]
      omega
  apply hy
  · refine ⟨by simp [Cursor.valueFetched, F₁, hL.flow], by simp [Cursor.valueFetched, F₁,
      hL.started], ⟨_, rfl, rfl⟩, rfl, ?_⟩
    by_cases ht : top < l.column
    · simp [Cursor.valueFetched, Line.stack, hind₁, hinds₁, hKc, ht, hop, hsplit]
    · simp [Cursor.valueFetched, Line.stack, hind₁, hinds₁, hKc, ht, hop, hsplit]
  · exact Cursor.rest_past (show F₁.rest = [':'] ++ _ from hrest₁)
  · rfl
  · exact hGi
  · rw [hGi]
    simp [Cursor.valueFetched, F₁, Cursor.keyFetched, hc]
    omega

/-! ### Values -/

theorem StartsToken.gapStop {r : List Char} (h : StartsToken r) : GapStop r := by
  cases r with
  | nil => exact ⟨rfl, rfl⟩
  | cons c r =>
    obtain ⟨h1, h2, -, h4, -⟩ := h c (by simp)
    simp [GapStop, isBlank, h1, h2, h4]

/-- The text of lines that fit: the first line's indentation, then a token's first character (or
the end of the text), where a cursor with that column stands at the lines. -/
theorem lines_split {S : List Int} {ls : List Line} (hf : LinesFit S ls) :
    ∃ r, ls.flatMap Line.chars = List.replicate (firstColumn ls) ' ' ++ r ∧ StartsToken r ∧
      ∀ s : Cursor, s.rest = r → s.mark.column = firstColumn ls → s.keyAllowed = true →
        AtLines s ls := by
  cases ls with
  | nil => exact ⟨[], by simp [firstColumn], by intro c hc; simp at hc,
      fun s h1 h2 _ => ⟨h1, by simpa [firstColumn] using h2⟩⟩
  | cons l ls =>
    refine ⟨l.body.chars ++ '\n' :: ls.flatMap Line.chars, by simp [Line.chars, firstColumn],
      Line.startsToken hf.1 _, fun s h1 h2 h3 => ⟨h1, by simpa [firstColumn] using h2, h3⟩⟩

theorem AtLines.before {s : Cursor} {ls : List Line} (h : AtLines s ls) : Before s ls := by
  cases ls with
  | nil => exact .stop h.1 h.2
  | cons l ls => exact .line h.rest h.column h.allowed

/-- Where a cursor stands before lines depends only on its position and on whether a key may
start there. -/
theorem Before.congr {s s' : Cursor} {ls : List Line} (h : Before s ls) (hr : s'.rest = s.rest)
    (hc : s'.mark.column = s.mark.column) (ha : s'.keyAllowed = s.keyAllowed) : Before s' ls := by
  cases h with
  | feed h1 => exact .feed (hr.trans h1)
  | line h1 h2 h3 => exact .line (hr.trans h1) (hc.trans h2) (ha.trans h3)
  | stop h1 h2 => exact .stop (hr.trans h1) (hc.trans h2)

theorem Written.startsToken {v : Written} (hv : v.Valid) (r : List Char) :
    StartsToken (v.chars ++ r) := by
  cases v with
  | plain p =>
    obtain ⟨c, cs, hcs, hc⟩ := hv.2.1
    simpa [Written.chars, hcs] using hc.startsToken _
  | quoted t =>
    intro c hc
    simp [Written.chars, doubleQuoted_toList] at hc
    subst hc
    decide

theorem runs_fetchNextToken_value {H I : Cursor} {S : List Int} {v : Written} {r : List Char}
    (h : Between H S) (hrest : H.rest = ' ' :: (v.chars ++ r)) (hv : v.Valid)
    (hind : H.indent ≤ H.mark.column) (hf : Runs fetchToken (H.past [' ']) () I) :
    Runs fetchNextToken H () I := by
  have hskip := runs_skipToToken_inline (s := H) (n := 1) (by simpa using hrest)
    (Written.startsToken hv r)
  obtain ⟨k0, hk0, hp0⟩ := h.slot
  refine runs_fetchNextToken h.started hskip
    (runs_dropStaleKeys_keep (by simpa using hk0) (by simp [hp0])) (by simpa using h.flow) ?_ ?_
  · simp [closedTo, show ¬((H.mark.column : Int) + 1 < H.indent) by omega]
  · rw [Cursor.closeTo_eq_self (by simp; omega)]
    exact hf

/-- The cursor after a written scalar is fetched from `s`: a plain one is read through the line
feed after it and the next line's `n` blanks of indentation, a quoted one up to its closing
quote. -/
def Cursor.writtenFetched (s : Cursor) (v : Written) (n : Nat) : Cursor :=
  let s₂ : Cursor := match v with
    | .plain p => { (s.past p.toList).newline.past (List.replicate n ' ') with keyAllowed := true }
    | .quoted t => s.past (doubleQuoted t).toList
  { s₂ with queue := s₂.queue ++ [⟨v.token, s.mark, (s.past v.chars).mark⟩] }

section WrittenFetched

variable (s : Cursor) (v : Written) (n : Nat)

@[simp] theorem Cursor.writtenFetched_queue :
    (s.writtenFetched v n).queue = s.queue ++ [⟨v.token, s.mark, (s.past v.chars).mark⟩] := by
  cases v <;> rfl
@[simp] theorem Cursor.writtenFetched_taken : (s.writtenFetched v n).taken = s.taken := by
  cases v <;> rfl
@[simp] theorem Cursor.writtenFetched_keys : (s.writtenFetched v n).keys = s.keys := by
  cases v <;> rfl
@[simp] theorem Cursor.writtenFetched_indent : (s.writtenFetched v n).indent = s.indent := by
  cases v <;> rfl
@[simp] theorem Cursor.writtenFetched_indents : (s.writtenFetched v n).indents = s.indents := by
  cases v <;> rfl
@[simp] theorem Cursor.writtenFetched_flowLevel :
    (s.writtenFetched v n).flowLevel = s.flowLevel := by
  cases v <;> rfl
@[simp] theorem Cursor.writtenFetched_started : (s.writtenFetched v n).started = s.started := by
  cases v <;> rfl

end WrittenFetched

theorem Cursor.atDocumentMarker_of_column {s : Cursor} (h : s.mark.column ≠ 0) :
    s.atDocumentMarker = false := by
  simp [Cursor.atDocumentMarker, h]

/-- A written scalar after the start of a line, followed by lines that fit: its token is queued.
Saving a possible key before it changes at most the keys. -/
theorem runs_fetchToken_written {H : Cursor} {keys : Array SimpleKey} {v : Written} {S : List Int}
    {ls : List Line} (hsave : Runs saveKey H () { H with keys })
    (hrest : H.rest = v.chars ++ '\n' :: ls.flatMap Line.chars) (hv : v.Valid) (hf : LinesFit S ls)
    (hflow : H.flowLevel = 0) (hcol : H.mark.column ≠ 0)
    (hn : v.isPlain = true → (firstColumn ls : Int) < H.indent + 1) :
    Runs fetchToken H ()
      (({ H with keys, keyAllowed := false } : Cursor).writtenFetched v (firstColumn ls)) := by
  cases v with
  | plain p =>
    obtain ⟨c, cs, hcs, hc⟩ := hv.2.1
    obtain ⟨r, hsplit, hr, -⟩ := lines_split hf
    have h0 : H.ahead 0 = c :=
      H.ahead_zero (show H.rest = c :: (cs ++ '\n' :: ls.flatMap Line.chars) by
        rw [hrest]; simp [Written.chars, hcs])
    refine runs_fetchToken_plain h0 hc (Cursor.atDocumentMarker_of_column hcol) hflow ?_
    refine runs_fetchKeyable hsave (runs_scanPlain_value hv.1 ?_ hr.gapStop hflow
      (Cursor.atDocumentMarker_of_column hcol) (hn rfl))
    rw [← hsplit]
    exact hrest
  | quoted t =>
    have h0 : H.ahead 0 = '"' :=
      H.ahead_zero (r := t.toList.flatMap quotedChars ++ '"' :: '\n' :: ls.flatMap Line.chars)
        (by rw [hrest]; simp [Written.chars, doubleQuoted_toList])
    exact runs_fetchToken_quoted h0 (runs_fetchKeyable hsave (runs_scanQuoted hrest))

@[simp] theorem Cursor.writtenFetched_line (s : Cursor) (v : Written) (n : Nat) :
    (s.writtenFetched v n).mark.line = if v.isPlain then s.mark.line + 1 else s.mark.line := by
  cases v <;> rfl

theorem Cursor.writtenFetched_before {s : Cursor} {v : Written} {S : List Int} {ls : List Line}
    (hrest : s.rest = v.chars ++ '\n' :: ls.flatMap Line.chars) (hf : LinesFit S ls) :
    Before (s.writtenFetched v (firstColumn ls)) ls := by
  cases v with
  | plain p =>
    obtain ⟨r, hsplit, -, hat⟩ := lines_split hf
    refine (hat _ ?_ (by simp [Cursor.writtenFetched]) rfl).before
    rw [hsplit] at hrest
    exact Cursor.rest_past (Cursor.rest_newline (Cursor.rest_past hrest))
  | quoted t => exact .feed (Cursor.rest_past hrest)

/-- The value of a `key: value` line, after the `:`: no key may start there, so its scalar is
given at once, and the lines after it follow. -/
theorem yields_pairValue {H : Cursor} {S : List Int} {v : Written} {ls : List Line}
    {ts : List TokenKind} (h : Between H S)
    (hrest : H.rest = ' ' :: (v.chars ++ '\n' :: ls.flatMap Line.chars))
    (ha : H.keyAllowed = false) (hind : H.indent ≤ H.mark.column) (hv : v.Valid)
    (hn : v.isPlain = true → (firstColumn ls : Int) ≤ H.indent) (hf : LinesFit S ls)
    (hy : ∀ σ, Between σ S → Before σ ls → Yields 2 σ ts) : Yields 15 H (v.token :: ts) := by
  obtain ⟨k0, hk0, hp0⟩ := h.slot
  let H₁ := H.past [' ']
  have hrest₁ : H₁.rest = v.chars ++ '\n' :: ls.flatMap Line.chars :=
    Cursor.rest_past (show H.rest = [' '] ++ _ from hrest)
  have hsave : Runs saveKey H₁ () { H₁ with keys := H₁.keys } := runs_saveKey_forbidden ha
  have hfetch := runs_fetchToken_written hsave hrest₁ hv hf h.flow (by simp [H₁])
    (fun hp => by have := hn hp; simp [H₁]; omega)
  refine Yields.fetch (m := 14) (runs_needsMore_empty h.queue)
    (runs_fetchNextToken_value h hrest hv hind hfetch) ?_
  let W := ({ H₁ with keys := H₁.keys, keyAllowed := false } : Cursor).writtenFetched v
    (firstColumn ls)
  let tok : Token := ⟨v.token, H₁.mark, (H₁.past v.chars).mark⟩
  have hq : W.queue = [tok] ++ [] := by simp [W, H₁, tok, h.queue]
  refine Yields.queued_ne hq (by simpa [W, H₁] using hk0) (by simp) (.inl hp0) ?_
  have hσ : Between { W with queue := [], taken := W.taken + 1 } S :=
    ⟨by simp [W, H₁, h.flow], by simp [W, H₁, h.started], ⟨k0, by simp [W, H₁, hk0], hp0⟩, rfl,
      by simp [W, H₁, h.stack]⟩
  have hb := Cursor.writtenFetched_before
    (s := ({ H₁ with keys := H₁.keys, keyAllowed := false } : Cursor)) hrest₁ hf
  exact (hy _ hσ (hb.congr rfl rfl rfl)).mono (by omega)

/-! ### A quoted entry and the next line -/

/-- The cursor once the head of its queue is taken and its possible keys are given up. -/
def Cursor.settled (s : Cursor) : Cursor :=
  { s.skipped with keys := s.keys.map fun k => { k with possible := false } }

theorem runs_fetchNextToken_feed {s s₂ : Cursor} {S : List Int} {ls : List Line} {k0 : SimpleKey}
    (hS : StackOk S) (hst : s.started = true) (hflow : s.flowLevel = 0)
    (hstack : s.indent :: s.indents = S) (hrest : s.rest = '\n' :: ls.flatMap Line.chars)
    (hf : LinesFit S ls) (hd : Runs dropStaleKeys (s.toLine (firstColumn ls)) () s₂)
    (hs₂ : s₂ = { s.toLine (firstColumn ls) with keys := #[k0] }) (hp : k0.possible = false) :
    Runs fetchNextToken s () (s₂.lineFetched ls) := by
  obtain ⟨r, hsplit, hr, hat⟩ := lines_split hf
  rw [hsplit] at hrest
  have hskip := runs_skipToToken_newline hrest hr hflow
  subst hs₂
  refine runs_fetchNextToken hst hskip hd (by simp [Cursor.toLine, hflow]) ?_ ?_
  · simpa [Cursor.toLine, hstack] using hS.closedTo_ne_nil _
  · refine runs_fetchToken_lines hS (by simpa [Cursor.toLine] using hstack)
      (by simp [Cursor.toLine, hflow]) rfl hp ?_ hf
    exact hat _ (Cursor.rest_toLine hrest) (by simp [Cursor.toLine]) rfl

theorem Between.fetchFeed {s : Cursor} {S : List Int} {ls : List Line} (h : Between s S)
    (hS : StackOk S) (hrest : s.rest = '\n' :: ls.flatMap Line.chars) (hf : LinesFit S ls) :
    Runs fetchNextToken s () ((s.toLine (firstColumn ls)).lineFetched ls) := by
  obtain ⟨k0, hk0, hp0⟩ := (h.toLine (firstColumn ls)).slot
  exact runs_fetchNextToken_feed hS h.started h.flow h.stack hrest hf
    (h.toLine _).dropStaleKeys (Cursor.with_keys_eq hk0).symm hp0

/-- A quoted scalar queued with its possible key still alive: the fetch it asks for drops the key,
now on an earlier line, and fetches the next line's first token behind the scalar. -/
theorem runs_fetchNextToken_prefetch {W : Cursor} {K : SimpleKey} {tok : Token} {S : List Int}
    {ls : List Line} (hS : StackOk S) (hσ : Between W.settled S) (hq : W.queue = [tok])
    (hk : W.keys = #[K]) (hp : K.possible = true) (hr : K.required = false)
    (hline : K.mark.line ≤ W.mark.line) (hrest : W.rest = '\n' :: ls.flatMap Line.chars)
    (hf : LinesFit S ls) :
    Runs fetchNextToken W () (((W.settled.toLine (firstColumn ls)).lineFetched ls).pushFront tok) := by
  have hd := runs_dropStaleKeys_stale (s := W.toLine (firstColumn ls)) (by simpa [Cursor.toLine] using hk)
    hp (by simp [SimpleKey.staleAt, Cursor.toLine]; omega) hr
  have heq : ({ W.toLine (firstColumn ls) with keys := #[{ K with possible := false }] } : Cursor) =
      (W.settled.toLine (firstColumn ls)).pushFront tok := by
    cases W
    simp_all [Cursor.toLine, Cursor.settled, Cursor.skipped, Cursor.pushFront, Cursor.newline,
      Cursor.past]
  have hrun := runs_fetchNextToken_feed hS (by simpa [Cursor.settled, Cursor.skipped] using hσ.started)
    (by simpa [Cursor.settled, Cursor.skipped] using hσ.flow)
    (by simpa [Cursor.settled, Cursor.skipped] using hσ.stack) hrest hf hd rfl rfl
  rwa [heq, Cursor.lineFetched_pushFront _ (by simp [Cursor.toLine, Cursor.settled,
    Cursor.skipped])] at hrun

theorem Cursor.keyFetched_live (s : Cursor) {k : String} (hk : utf8Length k.toList ≤ 1024) :
    (s.closeTo s.mark.column).keyHere.staleAt (s.keyFetched k) = false := by
  simp [SimpleKey.staleAt, Cursor.keyHere, Cursor.keyFetched, Cursor.closeTo]
  omega

/-- A token put back before the first token of a line is sure: the line's possible key, if any,
stands after it. -/
theorem Between.needsMore_pushFront {L : Cursor} {S : List Int} {ls : List Line} {t : Token}
    (h : Between L S) (hat : AtLines L ls) (hf : LinesFit S ls) (ht : 0 < L.taken) :
    Runs needsMore ((L.lineFetched ls).pushFront t) false ((L.lineFetched ls).pushFront t) := by
  obtain ⟨k0, hk0, hp0⟩ := h.slot
  have hne : ((L.lineFetched ls).pushFront t).queue ≠ [] := by simp [Cursor.pushFront]
  have hkey : ∀ k : String, utf8Length k.toList ≤ 1024 →
      Runs needsMore ((L.keyFetched k).pushFront t) false ((L.keyFetched k).pushFront t) := by
    intro k hk
    have hrun := runs_needsMore_live (s := (L.keyFetched k).pushFront t) (by simp [Cursor.pushFront])
      rfl (L.keyFetched_live hk)
    have hn : ((L.closeTo L.mark.column).keyHere.tokenNumber ==
        ((L.keyFetched k).pushFront t).taken) = false := by
      simp [Cursor.keyHere, Cursor.pushFront, Cursor.closeTo]
      omega
    simpa [hn] using hrun
  cases ls with
  | nil => exact runs_needsMore_quiet hne (by simpa [Cursor.lineFetched, Cursor.endFetched,
      Cursor.pushFront] using hk0) hp0
  | cons l ls =>
    obtain ⟨column, body⟩ := l
    cases body with
    | pair k v => exact hkey k hf.1.1.short
    | opens k => exact hkey k hf.1.short
    | item v => exact runs_needsMore_quiet hne (by simpa [Cursor.lineFetched, Cursor.entryFetched,
        Cursor.pushFront] using hk0) hp0

theorem Cursor.lineFetched_taken (s : Cursor) (ls : List Line) : (s.lineFetched ls).taken = s.taken := by
  cases ls with
  | nil => rfl
  | cons l ls =>
    obtain ⟨column, body⟩ := l
    cases body <;> rfl

theorem Cursor.writtenFetched_rest_quoted {s : Cursor} {v : Written} {n : Nat} {r : List Char}
    (hrest : s.rest = v.chars ++ r) (hv : v.isPlain = false) : (s.writtenFetched v n).rest = r := by
  cases v with
  | plain p => simp [Written.isPlain] at hv
  | quoted t => exact Cursor.rest_past hrest

/-- The value of a `- value` line, after the `-`. A key may start at the value, so it is recorded
as possible: a plain value's key is given up once its line has ended, a long quoted value's once
it lies 1024 bytes back, and a short quoted value's only when the next line's first token has been
fetched behind it. -/
theorem yields_itemValue {H : Cursor} {S : List Int} {v : Written} {ls : List Line}
    {ts : List TokenKind} (hS : StackOk S) (h : Between H S)
    (hrest : H.rest = ' ' :: (v.chars ++ '\n' :: ls.flatMap Line.chars))
    (ha : H.keyAllowed = true) (hind : H.indent + 1 = H.mark.column) (hv : v.Valid)
    (hn : v.isPlain = true → (firstColumn ls : Int) ≤ H.indent) (hf : LinesFit S ls)
    (hy : ∀ σ, Between σ S → Before σ ls → Yields 2 σ ts) : Yields 15 H (v.token :: ts) := by
  obtain ⟨k0, hk0, hp0⟩ := h.slot
  let H₁ := H.past [' ']
  let K := H₁.keyHere
  have hrest₁ : H₁.rest = v.chars ++ '\n' :: ls.flatMap Line.chars :=
    Cursor.rest_past (show H.rest = [' '] ++ _ from hrest)
  have hsave : Runs saveKey H₁ () { H₁ with keys := #[K] } :=
    runs_saveKey (by simpa [H₁] using hk0) hp0 (by simpa [H₁] using ha)
  have hfetch := runs_fetchToken_written hsave hrest₁ hv hf h.flow (by simp [H₁])
    (fun hp => by have := hn hp; simp [H₁]; omega)
  refine Yields.fetch (m := 14) (runs_needsMore_empty h.queue)
    (runs_fetchNextToken_value h hrest hv (by omega) hfetch) ?_
  let W₀ : Cursor := { H₁ with keys := #[K], keyAllowed := false }
  let W := W₀.writtenFetched v (firstColumn ls)
  let tok : Token := ⟨v.token, H₁.mark, (H₁.past v.chars).mark⟩
  have hq : W.queue = [tok] := by simp [W, W₀, H₁, tok, h.queue]
  have hkW : W.keys = #[K] := by simp [W, W₀]
  have hreq : K.required = false := by simp [K, H₁, Cursor.keyHere]; omega
  -- the cursor once the scalar is taken and its key given up is between lines
  have hσ : Between W.settled S :=
    ⟨by simp [Cursor.settled, Cursor.skipped, W, W₀, H₁, h.flow],
      by simp [Cursor.settled, Cursor.skipped, W, W₀, H₁, h.started],
      ⟨{ K with possible := false }, by simp [Cursor.settled, Cursor.skipped, hkW], rfl⟩,
      by simp [Cursor.settled, Cursor.skipped, hq],
      by simp [Cursor.settled, Cursor.skipped, W, W₀, H₁, h.stack]⟩
  have hbσ : Before W.settled ls :=
    (Cursor.writtenFetched_before (s := W₀) hrest₁ hf).congr rfl rfl rfl
  cases hstale : K.staleAt W
  · -- the key is still possible: the value is quoted and short, and the next request fetches
    -- the next line's first token behind it
    have hquoted : v.isPlain = false := by
      cases hp : v.isPlain
      · rfl
      · simp [SimpleKey.staleAt, K, W, W₀, H₁, Cursor.keyHere, hp] at hstale
    have hrestσ : W.settled.rest = '\n' :: ls.flatMap Line.chars :=
      Cursor.writtenFetched_rest_quoted (s := W₀) hrest₁ hquoted
    have hline : K.mark.line ≤ W.mark.line := by simp [K, W, W₀, H₁, Cursor.keyHere, hquoted]
    have hlive : Runs needsMore W true W := by
      have hrun := runs_needsMore_live (by simp [hq]) hkW hstale
      simpa [K, W, W₀, H₁, Cursor.keyHere, h.queue] using hrun
    refine Yields.fetch (m := 13) hlive
      (runs_fetchNextToken_prefetch hS hσ hq hkW rfl hreq hline hrestσ hf) ?_
    let L := W.settled.toLine (firstColumn ls)
    obtain ⟨r, hsplit, -, hat⟩ := lines_split hf
    have hatL : AtLines L ls :=
      hat L (Cursor.rest_toLine (by rw [hrestσ, hsplit])) (by simp [L, Cursor.toLine]) rfl
    have htaken : 0 < L.taken := by simp [L, Cursor.toLine, Cursor.settled, Cursor.skipped]
    refine Yields.head ((hσ.toLine _).needsMore_pushFront hatL hf htaken) ⟨tok, _, rfl, rfl⟩ ?_
    rw [Cursor.pushFront_skipped (by rw [Cursor.lineFetched_taken]; exact htaken)]
    have hfirst := (hy _ hσ hbσ).of_fetched (by simp [Cursor.settled, Cursor.skipped, hq])
      (hσ.fetchFeed hS hrestσ hf)
    exact hfirst.mono (by omega)
  · -- the key is given up, and the scalar is sure
    refine Yields.sure (runs_needsMore_stale (by simp) hkW rfl hstale hreq)
      (runs_needsMore_quiet (by simp) rfl rfl) ⟨tok, [], hq, rfl⟩ ?_
    have hsk : ({ W with keys := #[{ K with possible := false }] } : Cursor).skipped = W.settled := by
      simp [Cursor.settled, Cursor.skipped, hkW]
    rw [hsk]
    exact (hy _ hσ hbσ).mono (by omega)

/-! ### Whole lines -/

/-- An entry line: after the ends of the blocks it closes comes the `-`, and the cursor is then
past it, in the block the entry belongs to, where a key may start. -/
theorem yields_entryPart {s : Cursor} {S : List Int} {l : Line} {ls : List Line} {v : Written}
    {ks : List TokenKind} (hS : StackOk S) (h : Between s S) (hb : Before s (l :: ls))
    (hf : LinesFit S (l :: ls)) (hbody : l.body = .item v)
    (hy : ∀ H : Cursor, Between H (l.stack S) →
      H.rest = ' ' :: (v.chars ++ '\n' :: ls.flatMap Line.chars) → H.keyAllowed = true →
        H.indent = l.column → H.indent + 1 = H.mark.column → Yields 15 H ks) :
    Yields 2 s (List.replicate (closings l.column S).length .blockEnd ++ .blockEntry :: ks) := by
  obtain ⟨L, hfetch, hL, hat, -⟩ := h.firstFetch hS hb hf
  rw [show L.lineFetched (l :: ls) = L.entryFetched by simp [Cursor.lineFetched, hbody]] at hfetch
  refine Yields.fetch (runs_needsMore_empty h.queue) hfetch ?_
  obtain ⟨k0, hk0, hp0⟩ := hL.slot
  have hc : L.mark.column = l.column := hat.column
  -- the entry stands at the column of the block left open
  obtain ⟨keep, hkeep⟩ : ∃ keep : List Int, closedTo l.column S = (l.column : Int) :: keep := by
    have h1 := hf.1
    simp only [Line.Fits, hbody] at h1
    exact List.head?_eq_some_iff.mp h1.1
  have hstack : l.stack S = (l.column : Int) :: keep := by simp [Line.stack, Line.opens, hkeep]
  let n := (closings l.column S).length
  let e : Token := ⟨.blockEntry, L.mark, (L.past ['-']).mark⟩
  have hq : L.entryFetched.queue = (L.blockEnds n ++ [e]) ++ [] := by
    simp [Cursor.entryFetched, Cursor.closeTo, hL.queue, hL.stack, hc, n, e]
  rw [show List.replicate n .blockEnd ++ .blockEntry :: ks = (L.blockEnds n ++ [e]).map Token.kind ++ ks
    by simp [Cursor.blockEnds_kinds, e]]
  refine Yields.queued_ne hq (by simpa [Cursor.entryFetched] using hk0) (by simp) (.inl hp0) ?_
  have hrestL : L.rest = ['-'] ++ ' ' :: (v.chars ++ '\n' :: ls.flatMap Line.chars) := by
    rw [hat.rest, hbody]
    simp [Body.chars]
  apply hy
  · refine ⟨by simp [Cursor.entryFetched, hL.flow], by simp [Cursor.entryFetched, hL.started],
      ⟨k0, by simpa [Cursor.entryFetched] using hk0, hp0⟩, rfl, ?_⟩
    simp [Cursor.entryFetched, Cursor.closeTo, hL.stack, hc, hkeep, hstack]
  · exact Cursor.rest_past (s := L.closeTo L.mark.column) hrestL
  · rfl
  · simp [Cursor.entryFetched, Cursor.closeTo, hL.stack, hc, hkeep]
  · simp [Cursor.entryFetched, Cursor.closeTo, hL.stack, hc, hkeep]

theorem StackOk.stack {S : List Int} (h : StackOk S) (l : Line) : StackOk (l.stack S) := by
  obtain ⟨top, keep, hsplit, -, hok⟩ := h.split (show (-1 : Int) ≤ l.column by omega)
  unfold Line.stack
  split
  · exact hsplit ▸ hok.push (by omega)
  · exact hsplit ▸ hok

theorem firstColumn_le {ls : List Line} {c : Nat} (h : ∀ n ∈ ls.head?, n.column ≤ c) :
    firstColumn ls ≤ c := by
  cases ls with
  | nil => simp [firstColumn]
  | cons l ls => exact h l rfl

/-- Lines that fit, read from between lines: the tokens of each line in turn, then the ends of the
blocks left open and the end of the stream. -/
theorem yields_lines {ls : List Line} : ∀ {s : Cursor} {S : List Int}, StackOk S → Between s S →
    Before s ls → LinesFit S ls → Yields 2 s (linesTokens S ls) := by
  induction ls with
  | nil => exact fun hS h hb _ => yields_end hS h hb
  | cons l ls ih =>
    intro s S hS h hb hf
    have hnext : ∀ H, Between H (l.stack S) → Before H ls → Yields 2 H (linesTokens (l.stack S) ls) :=
      fun H hH hbH => ih (hS.stack l) hH hbH hf.2
    obtain ⟨column, body⟩ := l
    cases body with
    | pair k v =>
      obtain ⟨hk, hv, hplain⟩ := hf.1
      rw [linesTokens, Line.tokens, Body.tokens, List.append_assoc, List.append_assoc]
      refine yields_keyPart (r := ' ' :: v.chars) hS h hb hf hk (fun _ => rfl)
        (by simp [Body.chars]) rfl ?_
      intro H hH hr ha hi hle
      refine yields_pairValue hH (by simpa using hr) ha hle hv ?_ hf.2 hnext
      intro hp
      rw [hi]
      exact_mod_cast firstColumn_le (hplain hp)
    | opens k =>
      rw [linesTokens, Line.tokens, Body.tokens, List.append_assoc, List.append_assoc]
      refine yields_keyPart (r := []) hS h hb hf hf.1 (fun _ => rfl) (by simp [Body.chars]) rfl ?_
      intro H hH hr _ _ _
      exact (hnext H hH (.feed (by simpa using hr))).mono (by omega)
    | item v =>
      obtain ⟨-, hv, hplain⟩ := hf.1
      rw [linesTokens, Line.tokens, Body.tokens, List.append_assoc]
      refine yields_entryPart hS h hb hf rfl ?_
      intro H hH hr ha hi hcol
      refine yields_itemValue (hS.stack _) hH hr ha hcol hv ?_ hf.2 hnext
      intro hp
      rw [hi]
      exact_mod_cast firstColumn_le (hplain hp)

end ComponentSync.Yaml
