import Mathlib
import ComponentSync.Yaml.Token.Stream
/-! Running the tokenizer's character steps. `Runs x s a s'` says that a step run from the cursor
`s` returns `a` and leaves `s'`. A cursor is described by what is left of its text, `rest`; the
lemmas below give the effect of each character step on it: moving past characters of a line,
past a line feed, and past the blanks and line breaks that stand before a token. -/
namespace ComponentSync.Yaml

variable {α β : Type}

/-- A tokenizing step run from `s` returns `a` and leaves `s'`. -/
def Runs (x : ScanM α) (s : Cursor) (a : α) (s' : Cursor) : Prop :=
  x.run s = .ok (a, s')

namespace Runs

variable {x : ScanM α} {f : α → ScanM β} {s s₁ s₂ : Cursor} {a a' : α} {b : β}

theorem bind (hx : Runs x s a s₁) (hf : Runs (f a) s₁ b s₂) : Runs (x >>= f) s b s₂ := by
  unfold Runs at *
  simp only [StateT.run_bind, hx]
  exact hf

theorem of_bind (h : Runs (x >>= f) s b s₂) : ∃ a s₁, Runs x s a s₁ ∧ Runs (f a) s₁ b s₂ := by
  unfold Runs at *
  rw [StateT.run_bind] at h
  rcases hx : x.run s with e | ⟨a, s₁⟩
  · rw [hx] at h
    cases h
  · rw [hx] at h
    exact ⟨a, s₁, rfl, h⟩

theorem unique (h₁ : Runs x s a s₁) (h₂ : Runs x s a' s₂) : a = a' ∧ s₁ = s₂ := by
  unfold Runs at *
  rw [h₁] at h₂
  cases h₂
  exact ⟨rfl, rfl⟩

theorem pure (a : α) (s : Cursor) : Runs (Pure.pure a) s a s := rfl

theorem get (s : Cursor) : Runs MonadState.get s s s := rfl

theorem set (s s' : Cursor) : Runs (MonadStateOf.set s' : ScanM PUnit) s ⟨⟩ s' := rfl

theorem modify (g : Cursor → Cursor) (s : Cursor) : Runs (modify g : ScanM PUnit) s ⟨⟩ (g s) := rfl

end Runs

/-! ### Positions -/

/-- The characters from the cursor's position to the end of its text. -/
def Cursor.rest (s : Cursor) : List Char := s.text.toList.drop s.mark.index

theorem Cursor.ahead_eq (s : Cursor) (k : Nat) : s.ahead k = s.rest.getD k endChar := by
  simp only [Cursor.ahead, Cursor.rest, Array.getD_eq_getD_getElem?, List.getD_eq_getElem?_getD,
    List.getElem?_drop, Array.getElem?_toList]

theorem Cursor.ahead_zero {s : Cursor} {c : Char} {r : List Char} (h : s.rest = c :: r) :
    s.ahead 0 = c := by
  simp [s.ahead_eq, h]

theorem Cursor.ahead_one {s : Cursor} {c d : Char} {r : List Char} (h : s.rest = c :: d :: r) :
    s.ahead 1 = d := by
  simp [s.ahead_eq, h]

theorem Cursor.ahead_end {s : Cursor} (h : s.rest = []) (k : Nat) : s.ahead k = endChar := by
  simp [s.ahead_eq, h]

theorem Cursor.rest_length_le (s : Cursor) : s.rest.length ≤ s.text.size := by
  simp [Cursor.rest]

def utf8Length (cs : List Char) : Nat := (cs.map Char.utf8Size).sum

@[simp] theorem utf8Length_nil : utf8Length [] = 0 := rfl

@[simp] theorem utf8Length_cons (c : Char) (cs : List Char) :
    utf8Length (c :: cs) = c.utf8Size + utf8Length cs := by
  simp [utf8Length]

@[simp] theorem utf8Length_append (a b : List Char) :
    utf8Length (a ++ b) = utf8Length a + utf8Length b := by
  simp [utf8Length]

/-- The cursor moved past the characters `cs` of a line. -/
def Cursor.past (s : Cursor) (cs : List Char) : Cursor :=
  { s with
    mark := ⟨s.mark.index + cs.length, s.mark.line, s.mark.column + cs.length⟩
    offset := s.offset + utf8Length cs }

/-- The cursor moved past a line feed, to the start of the next line. -/
def Cursor.newline (s : Cursor) : Cursor :=
  { s with mark := ⟨s.mark.index + 1, s.mark.line + 1, 0⟩, offset := s.offset + 1 }

section Moves

variable (s : Cursor) (cs : List Char)

@[simp] theorem Cursor.past_text : (s.past cs).text = s.text := rfl
@[simp] theorem Cursor.past_queue : (s.past cs).queue = s.queue := rfl
@[simp] theorem Cursor.past_taken : (s.past cs).taken = s.taken := rfl
@[simp] theorem Cursor.past_indent : (s.past cs).indent = s.indent := rfl
@[simp] theorem Cursor.past_indents : (s.past cs).indents = s.indents := rfl
@[simp] theorem Cursor.past_keyAllowed : (s.past cs).keyAllowed = s.keyAllowed := rfl
@[simp] theorem Cursor.past_keys : (s.past cs).keys = s.keys := rfl
@[simp] theorem Cursor.past_flowLevel : (s.past cs).flowLevel = s.flowLevel := rfl
@[simp] theorem Cursor.past_started : (s.past cs).started = s.started := rfl
@[simp] theorem Cursor.past_mark :
    (s.past cs).mark = ⟨s.mark.index + cs.length, s.mark.line, s.mark.column + cs.length⟩ := rfl
@[simp] theorem Cursor.past_offset : (s.past cs).offset = s.offset + utf8Length cs := rfl

@[simp] theorem Cursor.newline_text : s.newline.text = s.text := rfl
@[simp] theorem Cursor.newline_queue : s.newline.queue = s.queue := rfl
@[simp] theorem Cursor.newline_taken : s.newline.taken = s.taken := rfl
@[simp] theorem Cursor.newline_indent : s.newline.indent = s.indent := rfl
@[simp] theorem Cursor.newline_indents : s.newline.indents = s.indents := rfl
@[simp] theorem Cursor.newline_keyAllowed : s.newline.keyAllowed = s.keyAllowed := rfl
@[simp] theorem Cursor.newline_keys : s.newline.keys = s.keys := rfl
@[simp] theorem Cursor.newline_flowLevel : s.newline.flowLevel = s.flowLevel := rfl
@[simp] theorem Cursor.newline_started : s.newline.started = s.started := rfl
@[simp] theorem Cursor.newline_mark : s.newline.mark = ⟨s.mark.index + 1, s.mark.line + 1, 0⟩ :=
  rfl
@[simp] theorem Cursor.newline_offset : s.newline.offset = s.offset + 1 := rfl

@[simp] theorem Cursor.past_nil : s.past [] = s := rfl

theorem Cursor.past_append (a b : List Char) : (s.past a).past b = s.past (a ++ b) := by
  simp only [Cursor.past, List.length_append, utf8Length_append, Nat.add_assoc]

end Moves

variable {s : Cursor} {cs r : List Char} {c : Char}

theorem Cursor.rest_past (h : s.rest = cs ++ r) : (s.past cs).rest = r := by
  have hdrop : (s.text.toList.drop s.mark.index).drop cs.length = r := by
    rw [show s.text.toList.drop s.mark.index = s.rest from rfl, h, List.drop_left]
  simpa [Cursor.rest, List.drop_drop, Nat.add_comm] using hdrop

theorem Cursor.rest_newline (h : s.rest = '\n' :: r) : s.newline.rest = r := by
  have hdrop : (s.text.toList.drop s.mark.index).drop 1 = r := by
    rw [show s.text.toList.drop s.mark.index = s.rest from rfl, h, List.drop_one, List.tail_cons]
  simpa [Cursor.rest, List.drop_drop, Nat.add_comm] using hdrop

/-! ### Character steps -/

theorem runs_peekAt (s : Cursor) (k : Nat) : Runs (peekAt k) s (s.rest.getD k endChar) s := by
  unfold Runs peekAt
  rw [← s.ahead_eq]
  rfl

theorem runs_skip (h : s.rest = c :: r) : Runs skip s () (s.past [c]) := by
  have h0 := s.ahead_zero h
  show Except.ok _ = _
  simp [Cursor.past, h0]

theorem runs_skipChars (h : s.rest = cs ++ r) : Runs (skipChars cs.length) s () (s.past cs) := by
  induction cs generalizing s with
  | nil => exact Runs.pure () s
  | cons c cs ih =>
    have hc : s.rest = [c] ++ (cs ++ r) := h
    have hrest := Cursor.rest_past hc
    refine Runs.bind (runs_skip hc) ?_
    have := ih hrest
    rwa [Cursor.past_append] at this

theorem runs_readChar (acc : String) (h : s.rest = c :: r) :
    Runs (readChar acc) s (acc.push c) (s.past [c]) := by
  unfold readChar
  refine Runs.bind (runs_peekAt s 0) ?_
  simp only [h, List.getD_cons_zero]
  exact Runs.bind (runs_skip h) (Runs.pure _ _)

theorem runs_skipLine_lf (h : s.rest = '\n' :: r) : Runs skipLine s () s.newline := by
  unfold Runs skipLine
  have h0 := s.ahead_zero h
  simp [h0, isBreak]
  rfl

theorem runs_readBreak_lf (acc : String) (h : s.rest = '\n' :: r) :
    Runs (readBreak acc) s (acc.push '\n') s.newline := by
  unfold readBreak
  refine Runs.bind (runs_peekAt s 0) ?_
  simp only [h, List.getD_cons_zero]
  exact Runs.bind (runs_skipLine_lf h) (Runs.pure _ _)

/-! ### Blanks and line breaks before a token -/

/-- A character that a run of blanks stops at: neither a space nor a tab. -/
def StopsBlanks (r : List Char) : Prop := r.head? ≠ some ' ' ∧ r.head? ≠ some '\t'

theorem runs_skipSpaces {n fuel : Nat} (h : s.rest = List.replicate n ' ' ++ r)
    (hr : StopsBlanks r) (hfuel : n ≤ fuel) :
    Runs (skipSpaces fuel) s () (s.past (List.replicate n ' ')) := by
  induction n generalizing s fuel with
  | zero =>
    cases fuel with
    | zero => exact Runs.pure () s
    | succ fuel =>
      have hc : s.ahead 0 ≠ ' ' ∧ s.ahead 0 ≠ '\t' := by
        rw [s.ahead_eq, show s.rest = r from h]
        cases r with
        | nil => decide
        | cons d r => simpa [StopsBlanks] using hr
      unfold skipSpaces
      refine Runs.bind (Runs.get s) ?_
      simp only [List.replicate_zero, Cursor.past_nil]
      rw [if_neg (by simp [hc.1, hc.2])]
      exact Runs.pure () s
  | succ n ih =>
    obtain ⟨fuel, rfl⟩ : ∃ f, fuel = f + 1 := ⟨fuel - 1, by omega⟩
    have hs : s.rest = [' '] ++ (List.replicate n ' ' ++ r) := by
      rw [h, List.replicate_succ, List.cons_append]
      rfl
    unfold skipSpaces
    refine Runs.bind (Runs.get s) ?_
    rw [if_pos (by simp [s.ahead_zero hs])]
    refine Runs.bind (runs_skip hs) ?_
    have hrun : Runs (skipSpaces fuel) (s.past [' ']) ()
        ((s.past [' ']).past (List.replicate n ' ')) := ih (Cursor.rest_past hs) (by omega)
    rwa [Cursor.past_append, List.singleton_append, ← List.replicate_succ] at hrun

/-- A text where a token may start: its first character, if any, is no blank, line break,
comment sign or byte order mark. -/
def StartsToken (r : List Char) : Prop :=
  ∀ c ∈ r.head?, c ≠ ' ' ∧ c ≠ '\t' ∧ c ≠ '#' ∧ isBreak c = false ∧ c ≠ '\uFEFF'

theorem StartsToken.stopsBlanks {r : List Char} (h : StartsToken r) : StopsBlanks r := by
  cases r with
  | nil => simp [StopsBlanks]
  | cons c r =>
    obtain ⟨h1, h2, -⟩ := h c rfl
    simpa [StopsBlanks] using ⟨h1, h2⟩

theorem StartsToken.first {r : List Char} (h : StartsToken r) :
    r.getD 0 endChar ≠ ' ' ∧ r.getD 0 endChar ≠ '#' ∧ isBreak (r.getD 0 endChar) = false ∧
      r.getD 0 endChar ≠ '\uFEFF' := by
  cases r with
  | nil => decide
  | cons c r =>
    obtain ⟨h1, -, h3, h4, h5⟩ := h c rfl
    exact ⟨h1, h3, h4, h5⟩

theorem runs_skipGaps_inline {fuel lines n : Nat} (h : s.rest = List.replicate n ' ' ++ r)
    (hr : StartsToken r) (hfuel : n ≤ fuel) :
    Runs (skipGaps fuel (lines + 1)) s () (s.past (List.replicate n ' ')) := by
  have hfirst := hr.first
  have hnb : s.ahead 0 ≠ '\uFEFF' := by
    rw [s.ahead_eq, h]
    cases n with
    | zero => exact hfirst.2.2.2
    | succ n => simp [List.replicate_succ]
  have hafter := Cursor.rest_past h
  unfold skipGaps
  refine Runs.bind (Runs.get s) ?_
  simp only []
  rw [if_neg (by simp [hnb])]
  refine Runs.bind (runs_skipSpaces h hr.stopsBlanks hfuel) ?_
  refine Runs.bind (runs_peekAt _ 0) ?_
  rw [hafter, if_neg (by simpa only [beq_iff_eq] using hfirst.2.1)]
  refine Runs.bind (runs_peekAt _ 0) ?_
  rw [hafter, if_neg (by simp only [hfirst.2.2.1, Bool.false_eq_true, not_false_eq_true])]
  exact Runs.pure () _

/-- Before a token on the next line, the line feed and the next line's indentation are skipped;
in block context the new line allows a key. -/
theorem runs_skipGaps_newline {fuel lines n : Nat}
    (h : s.rest = '\n' :: (List.replicate n ' ' ++ r)) (hr : StartsToken r) (hfuel : n ≤ fuel)
    (hflow : s.flowLevel = 0) :
    Runs (skipGaps fuel (lines + 2)) s ()
      ({ s.newline with keyAllowed := true }.past (List.replicate n ' ')) := by
  have h0 := s.ahead_zero h
  have hnl : ({ s.newline with keyAllowed := true } : Cursor).rest = List.replicate n ' ' ++ r :=
    Cursor.rest_newline h
  unfold skipGaps
  refine Runs.bind (Runs.get s) ?_
  simp only []
  rw [if_neg (by simp [h0])]
  refine Runs.bind (runs_skipSpaces (n := 0) h (by simp [StopsBlanks]) (Nat.zero_le _)) ?_
  simp only [List.replicate_zero, Cursor.past_nil]
  refine Runs.bind (runs_peekAt _ 0) ?_
  rw [h, List.getD_cons_zero, if_neg (by decide)]
  refine Runs.bind (runs_peekAt _ 0) ?_
  rw [h, List.getD_cons_zero, if_pos (by decide)]
  refine Runs.bind (runs_skipLine_lf h) ?_
  refine Runs.bind (Runs.get _) ?_
  rw [if_pos (by simp [hflow])]
  exact Runs.bind (Runs.modify _ _) (runs_skipGaps_inline hnl hr hfuel)

theorem runs_skipToToken_inline {n : Nat} (h : s.rest = List.replicate n ' ' ++ r)
    (hr : StartsToken r) : Runs skipToToken s () (s.past (List.replicate n ' ')) := by
  have hn : n ≤ s.text.size := by
    have := s.rest_length_le
    rw [h, List.length_append, List.length_replicate] at this
    omega
  exact Runs.bind (Runs.get s) (runs_skipGaps_inline h hr (by unfold Cursor.fuel; omega))

theorem runs_skipToToken_newline {n : Nat} (h : s.rest = '\n' :: (List.replicate n ' ' ++ r))
    (hr : StartsToken r) (hflow : s.flowLevel = 0) :
    Runs skipToToken s () ({ s.newline with keyAllowed := true }.past (List.replicate n ' ')) := by
  have hn : n ≤ s.text.size := by
    have := s.rest_length_le
    rw [h, List.length_cons, List.length_append, List.length_replicate] at this
    omega
  exact Runs.bind (Runs.get s) (runs_skipGaps_newline h hr (by unfold Cursor.fuel; omega) hflow)

end ComponentSync.Yaml
