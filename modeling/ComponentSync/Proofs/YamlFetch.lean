import ComponentSync.Proofs.YamlScalars
/-! How the tokenizer's bookkeeping runs in block context, and what the parser is given when it
asks for tokens. `Fetches n s s'` says that asking for the next token from `s` runs `n` fetches
and stops at `s'`, where the head of the queue is sure; `Yields m s ks` says that the parser,
peeking and taking tokens from `s`, is given the kinds `ks` in order. -/
namespace ComponentSync.Yaml

variable {s s' : Cursor} {k : SimpleKey}

/-! ### Possible keys -/

/-- Whether the cursor's position has made a possible key stale: it is on a later line, or more
than 1024 bytes past the key. -/
def SimpleKey.staleAt (k : SimpleKey) (s : Cursor) : Bool :=
  k.mark.line < s.mark.line || k.offset + 1024 < s.offset

theorem SimpleKey.not_possible_eq (h : k.possible = false) : { k with possible := false } = k := by
  cases k
  simp_all

theorem Cursor.with_keys_eq (h : s.keys = #[k]) : { s with keys := #[k] } = s := by
  cases s
  simp_all

theorem runs_dropStaleKeys_keep (hk : s.keys = #[k]) (h : (k.possible && k.staleAt s) = false) :
    Runs dropStaleKeys s () s := by
  unfold dropStaleKeys
  refine Runs.bind (Runs.get s) ?_
  have hstale : (k.possible && (k.mark.line < s.mark.line || k.offset + 1024 < s.offset)) = false :=
    h
  simp only [hk, Array.mapM_eq_mapM_toList, List.mapM_cons, List.mapM_nil, hstale,
    Bool.false_eq_true, if_false]
  conv => rhs; rw [← s.with_keys_eq hk]
  exact Runs.set _ _

theorem runs_dropStaleKeys_stale (hk : s.keys = #[k]) (hp : k.possible = true)
    (h : k.staleAt s = true) (hr : k.required = false) :
    Runs dropStaleKeys s () { s with keys := #[{ k with possible := false }] } := by
  unfold dropStaleKeys
  refine Runs.bind (Runs.get s) ?_
  have hstale : (k.possible && (k.mark.line < s.mark.line || k.offset + 1024 < s.offset)) = true :=
    by rw [hp]; exact h
  simp only [hk, Array.mapM_eq_mapM_toList, List.mapM_cons, List.mapM_nil, hstale, hr, if_true,
    Bool.false_eq_true, if_false]
  exact Runs.set _ _

theorem runs_removeKey (hk : s.keys = #[k]) (h : (k.possible && k.required) = false) :
    Runs removeKey s () { s with keys := #[{ k with possible := false }] } := by
  have hback : #[k].back? = some k := rfl
  have hpop : #[k].pop = #[] := rfl
  unfold removeKey
  refine Runs.bind (Runs.get s) ?_
  simp only [hk, hback, hpop, h, Bool.false_eq_true, if_false]
  exact Runs.set _ _

theorem runs_removeKey_none (hk : s.keys = #[k]) (hp : k.possible = false) :
    Runs removeKey s () s := by
  have h := runs_removeKey hk (by simp [hp])
  rwa [SimpleKey.not_possible_eq hp, s.with_keys_eq hk] at h

/-- The key a cursor would record at its position. -/
def Cursor.keyHere (s : Cursor) : SimpleKey :=
  ⟨true, s.flowLevel == 0 && s.indent == (s.mark.column : Int), s.taken + s.queue.length, s.mark,
    s.offset⟩

theorem runs_saveKey (hk : s.keys = #[k]) (hp : k.possible = false) (ha : s.keyAllowed = true) :
    Runs saveKey s () { s with keys := #[s.keyHere] } := by
  unfold saveKey
  refine Runs.bind (Runs.get s) ?_
  rw [if_pos ha]
  refine Runs.bind (runs_removeKey_none hk hp) ?_
  have hkeys : s.keys.pop.push s.keyHere = #[s.keyHere] := by rw [hk]; rfl
  have h := Runs.modify (fun t : Cursor => { t with keys := t.keys.pop.push s.keyHere }) s
  simp only [hkeys] at h
  exact h

theorem runs_saveKey_forbidden (ha : s.keyAllowed = false) : Runs saveKey s () s := by
  unfold saveKey
  refine Runs.bind (Runs.get s) ?_
  rw [if_neg (by simp [ha])]
  exact Runs.pure _ _

/-! ### Indentation -/

/-- The block end tokens closing `n` block collections at the cursor's position. -/
def Cursor.blockEnds (s : Cursor) (n : Nat) : List Token :=
  List.replicate n ⟨.blockEnd, s.mark, s.mark⟩

/-- The blocks a token at `column` closes: those of the stack, innermost first, deeper than it. -/
def closings (column : Int) (S : List Int) : List Int := S.takeWhile fun x => column < x

def closedTo (column : Int) (S : List Int) : List Int := S.dropWhile fun x => column < x

theorem closings_append_closedTo (column : Int) (S : List Int) :
    closings column S ++ closedTo column S = S :=
  List.takeWhile_append_dropWhile

/-- The cursor with the blocks deeper than `column` closed, each by a block end at its position. -/
def Cursor.closeTo (s : Cursor) (column : Int) : Cursor :=
  { s with
    queue := s.queue ++ s.blockEnds (closings column (s.indent :: s.indents)).length
    indent := (closedTo column (s.indent :: s.indents)).headD (-1)
    indents := (closedTo column (s.indent :: s.indents)).tail }

/-- Closing the blocks deeper than `column` pops them off the indentation stack, each with a
block end, down to a block no deeper than `column`. -/
theorem runs_closeBlocks {column : Int} {fuel : Nat}
    (h : closedTo column (s.indent :: s.indents) ≠ [])
    (hfuel : (closings column (s.indent :: s.indents)).length < fuel) :
    Runs (closeBlocks column fuel) s () (s.closeTo column) := by
  induction fuel generalizing s with
  | zero => omega
  | succ fuel ih =>
    unfold closeBlocks
    refine Runs.bind (Runs.get s) ?_
    by_cases hi : column < s.indent
    · -- the innermost block closes; the rest of the stack is closed from the next one
      have hne : s.indents ≠ [] := by
        intro hnil
        simp [closedTo, hnil, hi] at h
      obtain ⟨outer, rest, hor⟩ := List.exists_cons_of_ne_nil hne
      simp only [hor]
      rw [if_pos hi]
      refine Runs.bind (Runs.set _ _) ?_
      have hc : closings column (s.indent :: outer :: rest) =
          s.indent :: closings column (outer :: rest) := by simp [closings, hi]
      have hd : closedTo column (s.indent :: outer :: rest) = closedTo column (outer :: rest) := by
        simp [closedTo, hi]
      rw [hor, hd] at h
      rw [hor, hc] at hfuel
      let t : Cursor :=
        { s with queue := s.queue ++ s.blockEnds 1, indent := outer, indents := rest }
      have hrun := ih (s := t) h (by simp at hfuel ⊢; omega)
      have heq : t.closeTo column = s.closeTo column := by
        simp [t, Cursor.closeTo, Cursor.blockEnds, hor, hc, hd, List.replicate_succ]
      rw [heq] at hrun
      exact hrun
    · -- the innermost block is no deeper than `column`: nothing closes
      have heq : s.closeTo column = s := by
        cases s
        simp_all [Cursor.closeTo, closings, closedTo, Cursor.blockEnds]
      rw [heq]
      rcases hrest : s.indents with _ | ⟨outer, rest⟩
      · exact Runs.pure _ _
      · simp only
        rw [if_neg hi]
        exact Runs.pure _ _

theorem runs_unrollIndent {column : Int} (hflow : s.flowLevel = 0)
    (h : closedTo column (s.indent :: s.indents) ≠ []) :
    Runs (unrollIndent column) s () (s.closeTo column) := by
  have hsum := congrArg List.length (closings_append_closedTo column (s.indent :: s.indents))
  have hpos := List.length_pos_iff.mpr h
  simp only [List.length_append, List.length_cons] at hsum
  have hlt : (closings column (s.indent :: s.indents)).length < s.indents.length + 1 := by omega
  unfold unrollIndent
  refine Runs.bind (Runs.get s) ?_
  rw [if_neg (by simp [hflow])]
  exact Runs.bind (Runs.get s) (runs_closeBlocks h hlt)

theorem runs_rollIndent_none {column : Int} {number : Option Nat} {kind : TokenKind} {m : Mark}
    (h : ¬s.indent < column) : Runs (rollIndent column number kind m) s () s := by
  unfold rollIndent
  refine Runs.bind (Runs.get s) ?_
  rw [if_neg (by simp [h])]
  exact Runs.pure _ _

/-- Opening a block collection before the token numbered `n` puts its start token in the queue
where that token stands. -/
theorem runs_rollIndent_at {column : Int} {n i : Nat} {kind : TokenKind} {m : Mark}
    (hflow : s.flowLevel = 0) (h : s.indent < column) (hi : n - s.taken = i) :
    Runs (rollIndent column (some n) kind m) s ()
      { s with indents := s.indent :: s.indents, indent := column,
               queue := s.queue.take i ++ ⟨kind, m, m⟩ :: s.queue.drop i } := by
  subst hi
  unfold rollIndent
  refine Runs.bind (Runs.get s) ?_
  rw [if_pos (by simp [hflow, h])]
  exact Runs.set _ _

/-! ### Fetching one token -/

theorem runs_emitIndicator {kind : TokenKind} {w r : List Char} (h : s.rest = w ++ r) :
    Runs (emitIndicator kind w.length) s ()
      { s.past w with queue := s.queue ++ [⟨kind, s.mark, (s.past w).mark⟩] } := by
  unfold emitIndicator
  refine Runs.bind (Runs.get s) ?_
  refine Runs.bind (runs_skipChars h) ?_
  exact Runs.bind (Runs.get _) (Runs.modify _ _)

theorem runs_fetchKeyable {scan : ScanM Token} {s₁ s₂ : Cursor} {t : Token}
    (hs : Runs saveKey s () s₁) (hscan : Runs scan { s₁ with keyAllowed := false } t s₂) :
    Runs (fetchKeyable scan) s () { s₂ with queue := s₂.queue ++ [t] } := by
  unfold fetchKeyable
  exact Runs.bind hs (Runs.bind (Runs.modify _ _) (Runs.bind hscan (Runs.modify _ _)))

theorem runs_fetchBlockEntry {r : List Char} (hflow : s.flowLevel = 0)
    (ha : s.keyAllowed = true) (hind : s.indent = (s.mark.column : Int)) (hk : s.keys = #[k])
    (hp : k.possible = false) (h : s.rest = '-' :: r) :
    Runs fetchBlockEntry s ()
      { s.past ['-'] with
        keyAllowed := true
        queue := s.queue ++ [⟨.blockEntry, s.mark, (s.past ['-']).mark⟩] } := by
  unfold fetchBlockEntry
  refine Runs.bind (Runs.get s) ?_
  rw [if_pos (by simp [hflow]), if_neg (by simp [ha])]
  dsimp only
  refine Runs.bind (runs_rollIndent_none (by omega)) ?_
  refine Runs.bind (runs_removeKey_none hk hp) (Runs.bind (Runs.modify _ _) ?_)
  refine runs_emitIndicator (w := ['-']) (r := r) ?_
  exact h

/-- The `:` after a possible key standing at the head of the queue: the key token is put before
it, after the start of a mapping when the key lies deeper than the current block. -/
theorem runs_fetchValue_opens {r : List Char} (hk : s.keys = #[k]) (hp : k.possible = true)
    (hn : k.tokenNumber = s.taken) (hflow : s.flowLevel = 0) (hlt : s.indent < (k.mark.column : Int))
    (h : s.rest = ':' :: r) :
    Runs fetchValue s ()
      { s.past [':'] with
        queue := ⟨.blockMappingStart, k.mark, k.mark⟩ :: ⟨.key, k.mark, k.mark⟩ :: s.queue ++
          [⟨.value, s.mark, (s.past [':']).mark⟩]
        indent := k.mark.column
        indents := s.indent :: s.indents
        keys := #[{ k with possible := false }]
        keyAllowed := false } := by
  obtain ⟨possible, required, number, m, offset⟩ := k
  simp only at hp hn hlt
  subst hp hn
  have hback : #[(⟨true, required, s.taken, m, offset⟩ : SimpleKey)].back? =
      some ⟨true, required, s.taken, m, offset⟩ := rfl
  unfold fetchValue
  refine Runs.bind (Runs.get s) ?_
  simp only [hk, hback, Option.getD_some, if_true, Nat.sub_self, List.take_zero,
    List.drop_zero, List.nil_append]
  refine Runs.bind (Runs.set _ _) (Runs.bind (runs_rollIndent_at hflow hlt (Nat.sub_self _)) ?_)
  refine Runs.bind (Runs.modify _ _) (Runs.bind (Runs.modify _ _) ?_)
  refine runs_emitIndicator (w := [':']) (r := r) ?_
  exact h

theorem runs_fetchValue_within {r : List Char} (hk : s.keys = #[k]) (hp : k.possible = true)
    (hn : k.tokenNumber = s.taken) (hle : ¬s.indent < (k.mark.column : Int))
    (h : s.rest = ':' :: r) :
    Runs fetchValue s ()
      { s.past [':'] with
        queue := ⟨.key, k.mark, k.mark⟩ :: s.queue ++ [⟨.value, s.mark, (s.past [':']).mark⟩]
        keys := #[{ k with possible := false }]
        keyAllowed := false } := by
  obtain ⟨possible, required, number, m, offset⟩ := k
  simp only at hp hn hle
  subst hp hn
  have hback : #[(⟨true, required, s.taken, m, offset⟩ : SimpleKey)].back? =
      some ⟨true, required, s.taken, m, offset⟩ := rfl
  unfold fetchValue
  refine Runs.bind (Runs.get s) ?_
  simp only [hk, hback, Option.getD_some, if_true, Nat.sub_self, List.take_zero,
    List.drop_zero, List.nil_append]
  refine Runs.bind (Runs.set _ _) (Runs.bind (runs_rollIndent_none hle) ?_)
  refine Runs.bind (Runs.modify _ _) (Runs.bind (Runs.modify _ _) ?_)
  refine runs_emitIndicator (w := [':']) (r := r) ?_
  exact h

/-- The cursor after the `:` that follows the possible key `k` at the head of the queue. -/
def Cursor.valueFetched (s : Cursor) (k : SimpleKey) : Cursor :=
  let opened := decide (s.indent < (k.mark.column : Int))
  { s.past [':'] with
    queue := (if opened then [⟨.blockMappingStart, k.mark, k.mark⟩] else []) ++
      ⟨.key, k.mark, k.mark⟩ :: s.queue ++ [⟨.value, s.mark, (s.past [':']).mark⟩]
    indent := if opened then (k.mark.column : Int) else s.indent
    indents := if opened then s.indent :: s.indents else s.indents
    keys := #[{ k with possible := false }]
    keyAllowed := false }

theorem runs_fetchValue_key {r : List Char} (hk : s.keys = #[k]) (hp : k.possible = true)
    (hn : k.tokenNumber = s.taken) (hflow : s.flowLevel = 0) (h : s.rest = ':' :: r) :
    Runs fetchValue s () (s.valueFetched k) := by
  by_cases hlt : s.indent < (k.mark.column : Int)
  · have hrun := runs_fetchValue_opens hk hp hn hflow hlt h
    simpa [Cursor.valueFetched, hlt] using hrun
  · have hrun := runs_fetchValue_within hk hp hn hlt h
    simpa [Cursor.valueFetched, hlt] using hrun

/-- The characters that start a plain scalar written without quotes: letters, digits, `/`, `_`
and `.`. -/
def PlainStart (c : Char) : Prop := (c.isAlphanum || c == '/' || c == '_' || c == '.') = true

/-- The characters that start some other token in block context, where a plain scalar may not
start. -/
def indicatorChars : List Char :=
  [endChar, '%', '-', '[', '\x7b', ']', '\x7d', ',', '?', ':', '*', '&', '!', '|', '>', '\'', '"']

theorem PlainStart.not_indicator {c : Char} (h : PlainStart c) : c ∉ indicatorChars := by
  unfold PlainStart at h
  simp only [indicatorChars, endChar, List.mem_cons, List.not_mem_nil, or_false]
  simp only [Bool.or_eq_true, beq_iff_eq] at h
  rcases h with ((h | rfl) | rfl) | rfl
  · intro hm
    rcases hm with rfl | rfl | rfl | rfl | rfl | rfl | rfl | rfl | rfl | rfl | rfl | rfl | rfl |
      rfl | rfl | rfl | rfl <;> simp at h
  all_goals decide

theorem PlainStart.starts {c : Char} (h : PlainStart c) (next : Char) :
    startsPlain false c next = true := by
  unfold PlainStart at h
  unfold startsPlain
  simp only [String.contains, isBlankOrEnd, isBlank, isBreakOrEnd, isBreak, endChar]
  simp only [Bool.or_eq_true, beq_iff_eq] at h
  rcases h with ((h | rfl) | rfl) | rfl
  · simp
    refine .inl (.inl ?_)
    and_intros <;> rintro rfl <;> simp at h
  all_goals simp

theorem runs_fetchToken_plain {c : Char} {s' : Cursor} (h0 : s.ahead 0 = c) (hc : PlainStart c)
    (hdm : s.atDocumentMarker = false) (hflow : s.flowLevel = 0)
    (h : Runs (fetchKeyable scanPlain) s () s') : Runs fetchToken s () s' := by
  have hi := hc.not_indicator
  have hs := hc.starts (s.ahead 1)
  simp only [indicatorChars, List.mem_cons, List.not_mem_nil, or_false, not_or] at hi
  obtain ⟨he, hpc, hm, hl, hlb, hr, hrb, hcm, hq, hco, hst, ham, hex, hbar, hgt, hsq, hdq⟩ := hi
  unfold fetchToken
  refine Runs.bind (Runs.get s) ?_
  simp [h0, hdm, hflow, hs, he, hpc, hm, hl, hlb, hr, hrb, hcm, hq, hco, hst, ham, hex, hbar, hgt,
    hsq, hdq]
  exact h

theorem runs_fetchToken_quoted {s' : Cursor} (h0 : s.ahead 0 = '"')
    (h : Runs (fetchKeyable (scanQuoted false)) s () s') : Runs fetchToken s () s' := by
  unfold fetchToken
  refine Runs.bind (Runs.get s) ?_
  simp only [h0]
  simp
  exact h

theorem runs_fetchToken_blockEntry {s' : Cursor} (h0 : s.ahead 0 = '-')
    (h1 : isBlankOrEnd (s.ahead 1) = true) (hdm : s.atDocumentMarker = false)
    (h : Runs fetchBlockEntry s () s') : Runs fetchToken s () s' := by
  unfold fetchToken
  refine Runs.bind (Runs.get s) ?_
  simp only [h0, h1, hdm]
  simp
  exact h

theorem runs_fetchToken_value {s' : Cursor} (h0 : s.ahead 0 = ':')
    (h1 : isBlankOrEnd (s.ahead 1) = true) (h : Runs fetchValue s () s') :
    Runs fetchToken s () s' := by
  unfold fetchToken
  refine Runs.bind (Runs.get s) ?_
  have hdm : s.atDocumentMarker = false := by simp [Cursor.atDocumentMarker, h0]
  simp only [h0, h1, hdm]
  simp
  exact h

theorem runs_fetchToken_end {s' : Cursor} (h0 : s.ahead 0 = endChar)
    (h : Runs fetchStreamEnd s () s') : Runs fetchToken s () s' := by
  unfold fetchToken
  refine Runs.bind (Runs.get s) ?_
  simp only [h0]
  simp
  exact h

theorem runs_fetchStreamEnd (hcol : s.mark.column = 0) (hflow : s.flowLevel = 0)
    (h : closedTo (-1) (s.indent :: s.indents) ≠ []) (hk : s.keys = #[k])
    (hp : k.possible = false) :
    Runs fetchStreamEnd s ()
      { s.closeTo (-1) with
        queue := (s.closeTo (-1)).queue ++ [⟨.streamEnd, s.mark, s.mark⟩]
        keyAllowed := false } := by
  unfold fetchStreamEnd
  have hs : (if s.mark.column != 0 then { s with mark := ⟨s.mark.index, s.mark.line + 1, 0⟩ }
      else s) = s := by simp [hcol]
  refine Runs.bind (Runs.modify _ _) ?_
  rw [hs]
  refine Runs.bind (runs_unrollIndent hflow h) ?_
  refine Runs.bind (runs_removeKey_none (by simpa [Cursor.closeTo] using hk) hp) ?_
  exact Runs.bind (Runs.modify _ _) (Runs.bind (Runs.get _) (Runs.modify _ _))

theorem runs_fetchNextToken_start (hst : s.started = false) :
    Runs fetchNextToken s ()
      { s with
        indent := -1
        keys := s.keys.push ⟨false, false, 0, Mark.origin, 0⟩
        keyAllowed := true
        started := true
        queue := s.queue ++ [⟨.streamStart, s.mark, s.mark⟩] } := by
  unfold fetchNextToken
  refine Runs.bind (Runs.get s) ?_
  rw [if_pos (by simp [hst])]
  exact Runs.bind (Runs.modify _ _) (Runs.pure _ _)

/-- A later token: after the blanks and line breaks before it, stale keys are dropped and the
blocks deeper than its column closed, then it is fetched by its first character. -/
theorem runs_fetchNextToken {s₁ s₂ s₃ : Cursor} (hst : s.started = true)
    (hskip : Runs skipToToken s () s₁) (hd : Runs dropStaleKeys s₁ () s₂)
    (hflow : s₂.flowLevel = 0) (h : closedTo s₂.mark.column (s₂.indent :: s₂.indents) ≠ [])
    (hf : Runs fetchToken (s₂.closeTo s₂.mark.column) () s₃) :
    Runs fetchNextToken s () s₃ := by
  unfold fetchNextToken
  refine Runs.bind (Runs.get s) ?_
  rw [if_neg (by simp [hst])]
  refine Runs.bind hskip (Runs.bind hd (Runs.bind (Runs.get s₂) ?_))
  exact Runs.bind (runs_unrollIndent hflow h) hf

/-! ### Asking for tokens -/

theorem runs_needsMore_empty (hq : s.queue = []) : Runs needsMore s true s := by
  unfold needsMore
  refine Runs.bind (Runs.get s) ?_
  rw [if_pos (by simp [hq])]
  exact Runs.pure _ _

theorem runs_needsMore {b : Bool} (hq : s.queue ≠ []) (hd : Runs dropStaleKeys s () s')
    (hb : (s'.keys.any fun k => k.possible && k.tokenNumber == s'.taken) = b) :
    Runs needsMore s b s' := by
  unfold needsMore
  refine Runs.bind (Runs.get s) ?_
  rw [if_neg (by simpa using hq)]
  refine Runs.bind hd (Runs.bind (Runs.get s') ?_)
  rw [hb]
  exact Runs.pure _ _

theorem runs_needsMore_quiet (hq : s.queue ≠ []) (hk : s.keys = #[k]) (hp : k.possible = false) :
    Runs needsMore s false s :=
  runs_needsMore hq (runs_dropStaleKeys_keep hk (by simp [hp])) (by simp [hk, hp])

theorem runs_needsMore_live (hq : s.queue ≠ []) (hk : s.keys = #[k])
    (hl : k.staleAt s = false) :
    Runs needsMore s (k.possible && k.tokenNumber == s.taken) s :=
  runs_needsMore hq (runs_dropStaleKeys_keep hk (by simp [hl])) (by simp [hk])

theorem runs_needsMore_stale (hq : s.queue ≠ []) (hk : s.keys = #[k]) (hp : k.possible = true)
    (h : k.staleAt s = true) (hr : k.required = false) :
    Runs needsMore s false { s with keys := #[{ k with possible := false }] } :=
  runs_needsMore hq (runs_dropStaleKeys_stale hk hp h hr) (by simp)

/-- Asking for the next token from `s` runs `n` fetches and stops at `s'`, where the head of the
queue is sure, and asking again changes nothing. -/
inductive Fetches : Nat → Cursor → Cursor → Prop
  | sure {s s' : Cursor} : Runs needsMore s false s' → Runs needsMore s' false s' → Fetches 0 s s'
  | more {n : Nat} {s s₁ s₂ s' : Cursor} : Runs needsMore s true s₁ →
      Runs fetchNextToken s₁ () s₂ → Fetches n s₂ s' → Fetches (n + 1) s s'

theorem Fetches.stay {n : Nat} (h : Fetches n s s') : Fetches 0 s' s' := by
  induction h with
  | sure _ h₂ => exact .sure h₂ h₂
  | more _ _ _ ih => exact ih

theorem Fetches.runs {n fuel : Nat} (h : Fetches n s s') (hn : n < fuel) :
    Runs (fetchUntilSure fuel) s () s' := by
  induction h generalizing fuel with
  | sure h₁ _ =>
    obtain ⟨fuel, rfl⟩ : ∃ j, fuel = j + 1 := ⟨fuel - 1, by omega⟩
    unfold fetchUntilSure
    refine Runs.bind h₁ ?_
    exact Runs.pure _ _
  | more h₁ h₂ _ ih =>
    obtain ⟨fuel, rfl⟩ : ∃ j, fuel = j + 1 := ⟨fuel - 1, by omega⟩
    unfold fetchUntilSure
    refine Runs.bind h₁ ?_
    simp only [Bool.not_true, Bool.false_eq_true, if_false]
    exact Runs.bind h₂ (ih (by omega))

theorem runs_peekToken {n : Nat} {t : Token} {q : List Token} (h : Fetches n s s') (hn : n < 16)
    (hq : s'.queue = t :: q) : Runs peekToken s t s' := by
  unfold peekToken fetchMore
  refine Runs.bind (Runs.bind (Runs.get s) (h.runs (by omega))) ?_
  refine Runs.bind (Runs.get s') ?_
  rw [hq]
  exact Runs.pure _ _

/-- The cursor after the parser takes the head of the queue. -/
def Cursor.skipped (s : Cursor) : Cursor :=
  { s with queue := s.queue.drop 1, taken := s.taken + 1 }

theorem runs_skipToken : Runs skipToken s () s.skipped := rfl

/-- The head of the cursor's queue is of kind `kind`. -/
def Cursor.HeadIs (s : Cursor) (kind : TokenKind) : Prop :=
  ∃ t q, s.queue = t :: q ∧ t.kind = kind

/-- The parser, peeking and taking tokens from `s`, is given the kinds `ks` in order: the first
after at most `m` fetches, each later one after fewer than sixteen. -/
def Yields : Nat → Cursor → List TokenKind → Prop
  | _, _, [] => True
  | m, s, kind :: ks => ∃ n s', Fetches n s s' ∧ n ≤ m ∧ s'.HeadIs kind ∧ Yields 15 s'.skipped ks

namespace Yields

variable {m : Nat} {kind : TokenKind} {ks : List TokenKind}

theorem mono {m' : Nat} (h : Yields m s ks) (hm : m ≤ m') : Yields m' s ks := by
  cases ks with
  | nil => trivial
  | cons kind ks =>
    obtain ⟨n, s', hf, hn, hh, hy⟩ := h
    exact ⟨n, s', hf, by omega, hh, hy⟩

theorem sure (h₁ : Runs needsMore s false s') (h₂ : Runs needsMore s' false s')
    (hh : s'.HeadIs kind) (hy : Yields 15 s'.skipped ks) : Yields m s (kind :: ks) :=
  ⟨0, s', .sure h₁ h₂, Nat.zero_le _, hh, hy⟩

theorem head (h : Runs needsMore s false s) (hh : s.HeadIs kind) (hy : Yields 15 s.skipped ks) :
    Yields m s (kind :: ks) :=
  sure h h hh hy

theorem fetch {s₁ s₂ : Cursor} (h₁ : Runs needsMore s true s₁) (h₂ : Runs fetchNextToken s₁ () s₂)
    (hy : Yields m s₂ ks) : Yields (m + 1) s ks := by
  cases ks with
  | nil => trivial
  | cons kind ks =>
    obtain ⟨n, s', hf, hn, hh, hy⟩ := hy
    exact ⟨n + 1, s', .more h₁ h₂ hf, by omega, hh, hy⟩

theorem of_fetched {s₁ : Cursor} (hy : Yields m s ks) (hq : s.queue = [])
    (h : Runs fetchNextToken s () s₁) : Yields m s₁ ks := by
  cases ks with
  | nil => trivial
  | cons kind ks =>
    obtain ⟨n, s', hf, hn, hh, hy⟩ := hy
    cases hf with
    | sure h₁ _ =>
      have := (runs_needsMore_empty hq).unique h₁
      simp at this
    | more h₁ h₂ hf =>
      obtain ⟨-, rfl⟩ := (runs_needsMore_empty hq).unique h₁
      obtain ⟨-, rfl⟩ := h.unique h₂
      exact ⟨_, s', hf, by omega, hh, hy⟩

theorem SimpleKey.staleAt_skipped (k : SimpleKey) (s : Cursor) : k.staleAt s.skipped = k.staleAt s :=
  rfl

theorem queued {K : SimpleKey} {toks rest : List Token} (hq : s.queue = toks ++ rest)
    (hk : s.keys = #[K])
    (hb : K.possible = false ∨ (K.staleAt s = false ∧ s.taken + toks.length ≤ K.tokenNumber))
    (hm : m ≤ 15) (hy : Yields m { s with queue := rest, taken := s.taken + toks.length } ks) :
    Yields m s (toks.map Token.kind ++ ks) := by
  induction toks generalizing s with
  | nil =>
    have heq : { s with queue := rest, taken := s.taken } = s := by
      cases s
      simp_all
    simp only [List.length_nil, Nat.add_zero, heq] at hy
    exact hy
  | cons t toks ih =>
    have hne : s.queue ≠ [] := by simp [hq]
    have hsure : Runs needsMore s false s := by
      rcases hb with hp | ⟨hl, hn⟩
      · exact runs_needsMore_quiet hne hk hp
      · have hrun := runs_needsMore_live hne hk hl
        have hne' : (K.tokenNumber == s.taken) = false := by
          simp only [List.length_cons] at hn
          simp only [beq_eq_false_iff_ne]
          omega
        simpa [hne'] using hrun
    have hrest : s.skipped.queue = toks ++ rest := by simp [Cursor.skipped, hq]
    have hy' : Yields m { s.skipped with queue := rest, taken := s.skipped.taken + toks.length } ks := by
      have heq : ({ s.skipped with queue := rest, taken := s.skipped.taken + toks.length } : Cursor) =
          { s with queue := rest, taken := s.taken + (t :: toks).length } := by
        simp only [Cursor.skipped, List.length_cons]
        congr 1
        omega
      rw [heq]
      exact hy
    refine head hsure ⟨t, toks ++ rest, hq, rfl⟩ ?_
    refine (ih hrest (by simpa [Cursor.skipped] using hk) ?_ hy').mono hm
    rcases hb with hp | ⟨hl, hn⟩
    · exact .inl hp
    · refine .inr ⟨by rw [SimpleKey.staleAt_skipped]; exact hl, ?_⟩
      simp only [Cursor.skipped, List.length_cons] at hn ⊢
      omega

/-- A nonempty run of tokens queued ahead of every possible key: the first is given at once, and
the ones after it need no more than sixteen fetches each. -/
theorem queued_ne {K : SimpleKey} {toks rest : List Token} (hq : s.queue = toks ++ rest)
    (hk : s.keys = #[K]) (hne : toks ≠ [])
    (hb : K.possible = false ∨ (K.staleAt s = false ∧ s.taken + toks.length ≤ K.tokenNumber))
    (hy : Yields 15 { s with queue := rest, taken := s.taken + toks.length } ks) :
    Yields m s (toks.map Token.kind ++ ks) := by
  obtain ⟨t, toks, rfl⟩ := List.exists_cons_of_ne_nil hne
  have hne' : s.queue ≠ [] := by simp [hq]
  have hsure : Runs needsMore s false s := by
    rcases hb with hp | ⟨hl, hn⟩
    · exact runs_needsMore_quiet hne' hk hp
    · have hrun := runs_needsMore_live hne' hk hl
      have hne'' : (K.tokenNumber == s.taken) = false := by
        simp only [List.length_cons] at hn
        simp only [beq_eq_false_iff_ne]
        omega
      simpa [hne''] using hrun
  refine head hsure ⟨t, toks ++ rest, hq, rfl⟩ ?_
  refine queued (show s.skipped.queue = toks ++ rest by simp [Cursor.skipped, hq])
    (by simpa [Cursor.skipped] using hk) ?_ (Nat.le_refl 15) ?_
  · rcases hb with hp | ⟨hl, hn⟩
    · exact .inl hp
    · refine .inr ⟨by rw [SimpleKey.staleAt_skipped]; exact hl, ?_⟩
      simp only [Cursor.skipped, List.length_cons] at hn ⊢
      omega
  · have heq : ({ s.skipped with queue := rest, taken := s.skipped.taken + toks.length } : Cursor) =
        { s with queue := rest, taken := s.taken + (t :: toks).length } := by
      simp only [Cursor.skipped, List.length_cons]
      congr 1
      omega
    rw [heq]
    exact hy

end Yields

end ComponentSync.Yaml
