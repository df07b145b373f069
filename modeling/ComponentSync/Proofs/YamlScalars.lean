import ComponentSync.Proofs.YamlCursor
import ComponentSync.Yaml.Emit
/-! Reading back the scalars a writer puts on one line. A plain scalar of characters that are no
blanks or line breaks is read to its end: before `: ` when it is a key, and through the line
break and the next line's indentation when it is a value. A double-quoted scalar is read back
as the text it was written from, each escape giving back the character it stands for. -/
namespace ComponentSync.Yaml

variable {s : Cursor} {r : List Char}

/-! ### Plain scalars -/

/-- A character that may stand in a plain scalar on one line: no blank, no line break, and not
the character that stands past the end of the text. -/
def PlainChar (c : Char) : Prop := c ≠ ' ' ∧ c ≠ '\t' ∧ isBreak c = false ∧ c ≠ endChar

/-- What may follow a plain scalar on its line: a blank or a line break, the end of the text,
or a `:` that a blank, a line break or the end follows. -/
def PlainStop (r : List Char) : Prop :=
  isBlankOrEnd (r.getD 0 endChar) = true ∨
    (r.getD 0 endChar = ':' ∧ isBlankOrEnd (r.getD 1 endChar) = true)

theorem PlainChar.not_blankOrEnd {c : Char} (h : PlainChar c) : isBlankOrEnd c = false := by
  obtain ⟨h1, h2, h3, h4⟩ := h
  simp [isBlankOrEnd, isBlank, isBreakOrEnd, h1, h2, h3, h4]

theorem Folding.flush_of_joined {f : Folding} (hb : f.brokeLine = false) (hs : f.blanks = "") :
    f.flush = f := by
  simp [Folding.flush, hb, hs]

theorem endsPlain_cons {c : Char} (h : s.rest = c :: r) (hflow : s.flowLevel = 0) :
    s.endsPlain = (isBlankOrEnd c || (c == ':' && isBlankOrEnd (r.getD 0 endChar))) := by
  have h0 := s.ahead_zero h
  have h1 : s.ahead 1 = r.getD 0 endChar := by simp [s.ahead_eq, h]
  simp [Cursor.endsPlain, h0, h1, hflow]

theorem endsPlain_of_stop (h : s.rest = r) (hr : PlainStop r) :
    s.endsPlain = true := by
  have h0 : s.ahead 0 = r.getD 0 endChar := by simp [s.ahead_eq, h]
  have h1 : s.ahead 1 = r.getD 1 endChar := by simp [s.ahead_eq, h]
  unfold Cursor.endsPlain
  rw [h0, h1]
  rcases hr with hr | ⟨hc, hn⟩
  · simp only [hr, Bool.true_or]
  · simp only [hc, hn, beq_self_eq_true, Bool.and_true, Bool.or_true, Bool.true_or]

theorem runs_plainPiece {c : Char} {cs : List Char} {m : Mark} {f : Folding} {n : Nat}
    (h : s.rest = c :: cs ++ r) (hflow : s.flowLevel = 0) (hpc : ∀ d ∈ c :: cs, PlainChar d)
    (hlast : (c :: cs).getLast (List.cons_ne_nil c cs) ≠ ':') (hr : PlainStop r)
    (hb : f.brokeLine = false) (hs : f.blanks = "") (hn : cs.length < n) :
    ∃ text : String, text.toList = f.text.toList ++ c :: cs ∧
      Runs (plainPiece m f n) s ((s.past (c :: cs)).mark, { f with text }) (s.past (c :: cs)) := by
  induction cs generalizing s c m f n with
  | nil =>
    obtain ⟨n, rfl⟩ : ∃ k, n = k + 1 := ⟨n - 1, by simp at hn; omega⟩
    have hrest : s.rest = [c] ++ r := h
    have hc := hpc c List.mem_cons_self
    have hne : c ≠ ':' := by simpa using hlast
    have hend : s.endsPlain = false := by
      rw [endsPlain_cons h hflow, hc.not_blankOrEnd]
      simp [hne]
    refine ⟨f.text.push c, by simp, ?_⟩
    unfold plainPiece
    refine Runs.bind (Runs.get s) ?_
    rw [hend, Folding.flush_of_joined hb hs]
    simp only [Bool.false_eq_true, if_false]
    refine Runs.bind (runs_readChar f.text hrest) ?_
    refine Runs.bind (Runs.get _) ?_
    cases n with
    | zero => exact Runs.pure _ _
    | succ n =>
      unfold plainPiece
      refine Runs.bind (Runs.get _) ?_
      rw [endsPlain_of_stop (Cursor.rest_past hrest) hr]
      exact Runs.pure _ _
  | cons d ds ih =>
    obtain ⟨n, rfl⟩ : ∃ k, n = k + 1 := ⟨n - 1, by simp at hn; omega⟩
    have hrest : s.rest = [c] ++ (d :: ds ++ r) := h
    have hc := hpc c List.mem_cons_self
    have hd := hpc d (List.mem_cons_of_mem _ List.mem_cons_self)
    have hend : s.endsPlain = false := by
      rw [endsPlain_cons h hflow, hc.not_blankOrEnd]
      simp [hd.not_blankOrEnd]
    obtain ⟨text, htext, hrun⟩ := ih (s := s.past [c]) (m := (s.past [c]).mark)
      (f := { f with text := f.text.push c }) (n := n) (Cursor.rest_past hrest) hflow
      (fun e he => hpc e (List.mem_cons_of_mem _ he))
      (by simpa [List.getLast_cons] using hlast) hb hs (by simp at hn; omega)
    refine ⟨text, by simp [htext], ?_⟩
    unfold plainPiece
    refine Runs.bind (Runs.get s) ?_
    rw [hend, Folding.flush_of_joined hb hs]
    simp only [Bool.false_eq_true, if_false]
    refine Runs.bind (runs_readChar f.text hrest) ?_
    refine Runs.bind (Runs.get _) ?_
    rw [Cursor.past_append] at hrun
    exact hrun

/-- What ends the blanks and line breaks after a piece of a scalar: a character that is neither,
or the end of the text. -/
def GapStop (r : List Char) : Prop :=
  isBlank (r.getD 0 endChar) = false ∧ isBreak (r.getD 0 endChar) = false

theorem runs_plainGap_indentation {n k : Nat} {indent : Int} {m : Mark} {f : Folding}
    (h : s.rest = List.replicate n ' ' ++ r) (hr : GapStop r) (hb : f.brokeLine = true)
    (hk : n < k) :
    Runs (plainGap indent m f k) s f (s.past (List.replicate n ' ')) := by
  induction n generalizing s k with
  | zero =>
    obtain ⟨k, rfl⟩ : ∃ j, k = j + 1 := ⟨k - 1, by omega⟩
    have h0 : s.ahead 0 = r.getD 0 endChar := by simp [s.ahead_eq, show s.rest = r from h]
    unfold plainGap
    refine Runs.bind (Runs.get s) ?_
    simp only [h0, hr.1, hr.2, Bool.false_eq_true, if_false, List.replicate_zero, Cursor.past_nil]
    exact Runs.pure f s
  | succ n ih =>
    obtain ⟨k, rfl⟩ : ∃ j, k = j + 1 := ⟨k - 1, by omega⟩
    have hs : s.rest = [' '] ++ (List.replicate n ' ' ++ r) := by
      rw [h, List.replicate_succ]
      rfl
    have h0 := s.ahead_zero hs
    unfold plainGap
    refine Runs.bind (Runs.get s) ?_
    simp only [h0, hb, show isBlank ' ' = true from rfl, if_true, Bool.true_and]
    rw [if_neg (by simp)]
    refine Runs.bind (runs_skip hs) ?_
    have hrun : Runs (plainGap indent m f k) (s.past [' ']) f
        ((s.past [' ']).past (List.replicate n ' ')) := ih (Cursor.rest_past hs) (by omega)
    rwa [Cursor.past_append, List.singleton_append, ← List.replicate_succ] at hrun

theorem runs_plainGap_newline {n k : Nat} {indent : Int} {m : Mark} {f : Folding}
    (h : s.rest = '\n' :: (List.replicate n ' ' ++ r)) (hr : GapStop r)
    (hb : f.brokeLine = false) (hk : n + 1 < k) :
    Runs (plainGap indent m f k) s
      { f with blanks := "", firstBreak := f.firstBreak.push '\n', brokeLine := true }
      (s.newline.past (List.replicate n ' ')) := by
  obtain ⟨k, rfl⟩ : ∃ j, k = j + 1 := ⟨k - 1, by omega⟩
  have h0 := s.ahead_zero h
  unfold plainGap
  refine Runs.bind (Runs.get s) ?_
  simp only [h0, hb, show isBlank '\n' = false from rfl, show isBreak '\n' = true from rfl,
    Bool.false_eq_true, if_false, if_true]
  refine Runs.bind (runs_readBreak_lf f.firstBreak h) ?_
  exact runs_plainGap_indentation (Cursor.rest_newline h) hr rfl (by omega)

/-- A text written as a plain scalar on one line: not empty, of plain characters, not starting
with `#` and not ending with `:`. -/
structure PlainText (p : String) : Prop where
  ne_nil : p.toList ≠ []
  chars : ∀ c ∈ p.toList, PlainChar c
  first : p.toList.head? ≠ some '#'
  last : p.toList.getLast? ≠ some ':'

theorem PlainText.cons {p : String} (hp : PlainText p) :
    ∃ c cs, p.toList = c :: cs ∧ c ≠ '#' ∧ (c :: cs).getLast (List.cons_ne_nil c cs) ≠ ':' := by
  obtain ⟨c, cs, hcs⟩ := List.exists_cons_of_ne_nil hp.ne_nil
  refine ⟨c, cs, hcs, fun h => hp.first (by simp [hcs, h]), fun h => hp.last ?_⟩
  rw [hcs, List.getLast?_eq_some_getLast (List.cons_ne_nil c cs), h]

theorem Cursor.fuel_eq (s : Cursor) : s.fuel = s.text.size + 1 + 1 := rfl

theorem runs_plainLines_key {p : String} {k lines : Nat} {indent : Int} {m : Mark}
    (hp : PlainText p) (h : s.rest = p.toList ++ ':' :: r)
    (hr : isBlankOrEnd (r.getD 0 endChar) = true) (hflow : s.flowLevel = 0)
    (hdm : s.atDocumentMarker = false) (hk : p.toList.length ≤ k) :
    Runs (plainLines k indent m m Folding.empty (lines + 1)) s
      ((s.past p.toList).mark, { Folding.empty with text := p }) (s.past p.toList) := by
  obtain ⟨c, cs, hcs, hhash, hlast⟩ := hp.cons
  rw [hcs] at h hk ⊢
  obtain ⟨text, htext, hrun⟩ := runs_plainPiece (m := m) (f := Folding.empty) (n := k) h hflow
    (hcs ▸ hp.chars) hlast (.inr ⟨rfl, hr⟩) rfl rfl (by simp at hk; omega)
  have htp : text = p := String.toList_inj.mp (by simpa [Folding.empty, hcs] using htext)
  subst htp
  have h0 : s.ahead 0 = c := s.ahead_zero h
  unfold plainLines
  refine Runs.bind (Runs.get s) ?_
  rw [if_neg (by simp [hdm, h0, hhash])]
  refine Runs.bind hrun ?_
  refine Runs.bind (runs_peekAt _ 0) ?_
  rw [Cursor.rest_past h, List.getD_cons_zero, if_pos (by decide)]
  exact Runs.pure _ _

theorem PlainText.length_lt {p : String} (h : s.rest = p.toList ++ r) :
    p.toList.length ≤ s.fuel := by
  have := s.rest_length_le
  rw [h, List.length_append] at this
  rw [Cursor.fuel_eq]
  omega

theorem runs_scanPlain_key {p : String} (hp : PlainText p) (h : s.rest = p.toList ++ ':' :: r)
    (hr : isBlankOrEnd (r.getD 0 endChar) = true) (hflow : s.flowLevel = 0)
    (hdm : s.atDocumentMarker = false) :
    Runs scanPlain s ⟨.scalar p .plain, s.mark, (s.past p.toList).mark⟩ (s.past p.toList) := by
  unfold scanPlain
  refine Runs.bind (Runs.get s) ?_
  rw [Cursor.fuel_eq]
  refine Runs.bind (runs_plainLines_key hp h hr hflow hdm
    (by rw [← Cursor.fuel_eq]; exact PlainText.length_lt h)) ?_
  exact Runs.pure _ _

/-- A plain value is read through the line feed after it and the next line's indentation, which
is less deep than the scalar's block. -/
theorem runs_plainLines_value {p : String} {k lines n : Nat} {indent : Int} {m : Mark}
    (hp : PlainText p) (h : s.rest = p.toList ++ '\n' :: (List.replicate n ' ' ++ r))
    (hr : GapStop r) (hflow : s.flowLevel = 0) (hdm : s.atDocumentMarker = false)
    (hk : p.toList.length ≤ k) (hnk : n + 1 < k) (hn : (n : Int) < indent) :
    Runs (plainLines k indent m m Folding.empty (lines + 1)) s
      ((s.past p.toList).mark, ⟨p, "\n", "", "", true⟩)
      ((s.past p.toList).newline.past (List.replicate n ' ')) := by
  obtain ⟨c, cs, hcs, hhash, hlast⟩ := hp.cons
  rw [hcs] at h hk ⊢
  obtain ⟨text, htext, hrun⟩ := runs_plainPiece (m := m) (f := Folding.empty) (n := k) h hflow
    (hcs ▸ hp.chars) hlast (.inl rfl) rfl rfl (by simp at hk; omega)
  have htp : text = p := String.toList_inj.mp (by simpa [Folding.empty, hcs] using htext)
  subst htp
  have h0 : s.ahead 0 = c := s.ahead_zero h
  have hafter := Cursor.rest_past h
  unfold plainLines
  refine Runs.bind (Runs.get s) ?_
  rw [if_neg (by simp [hdm, h0, hhash])]
  refine Runs.bind hrun ?_
  refine Runs.bind (runs_peekAt _ 0) ?_
  rw [hafter, List.getD_cons_zero, if_neg (by decide)]
  refine Runs.bind (runs_plainGap_newline hafter hr rfl hnk) ?_
  refine Runs.bind (Runs.get _) ?_
  rw [if_pos (by simp [hflow, hn])]
  exact Runs.pure _ _

theorem runs_scanPlain_value {p : String} {n : Nat} (hp : PlainText p)
    (h : s.rest = p.toList ++ '\n' :: (List.replicate n ' ' ++ r)) (hr : GapStop r)
    (hflow : s.flowLevel = 0) (hdm : s.atDocumentMarker = false) (hn : (n : Int) < s.indent + 1) :
    Runs scanPlain s ⟨.scalar p .plain, s.mark, (s.past p.toList).mark⟩
      { (s.past p.toList).newline.past (List.replicate n ' ') with keyAllowed := true } := by
  have hlen := s.rest_length_le
  rw [h] at hlen
  simp only [List.length_append, List.length_cons, List.length_replicate] at hlen
  unfold scanPlain
  refine Runs.bind (Runs.get s) ?_
  rw [Cursor.fuel_eq]
  refine Runs.bind (runs_plainLines_value hp h hr hflow hdm (by omega) (by omega) hn) ?_
  exact Runs.bind (Runs.modify _ _) (Runs.pure _ _)

/-! ### Double-quoted scalars -/

theorem Char.toNat_valid (c : Char) :
    c.toNat < 0xD800 ∨ (0xDFFF < c.toNat ∧ c.toNat < 0x110000) := by
  have := c.valid
  rw [UInt32.isValidChar] at this
  simp only [Nat.isValidChar] at this
  have hval : c.toNat = c.val.toNat := rfl
  omega

section Hex

theorem hexValue_toUpper_digitChar {d : Nat} (h : d < 16) :
    hexValue (Nat.digitChar d).toUpper = some d := by
  have hall : ∀ e < 16, hexValue (Nat.digitChar e).toUpper = some e := by decide
  exact hall d h

theorem hexNumber_append_one (l : List Char) (c : Char) :
    hexNumber (l ++ [c]) = (hexNumber l).bind fun v => (hexValue c).map (v * 16 + ·) := by
  simp [hexNumber, List.foldlM_append]

theorem hexNumber_zeros (k : Nat) (l : List Char) :
    hexNumber (List.replicate k '0' ++ l) = hexNumber l := by
  induction k with
  | zero => rfl
  | succ k ih =>
    rw [List.replicate_succ, List.cons_append, ← ih]
    simp [hexNumber, List.foldlM_cons, show hexValue '0' = some 0 from rfl]

theorem hexNumber_toDigits (n : Nat) : hexNumber ((Nat.toDigits 16 n).map Char.toUpper) = some n := by
  induction n using Nat.strongRecOn with
  | ind n ih =>
    rw [Nat.toDigits_eq_if (by decide)]
    split
    · simp [hexNumber, hexValue_toUpper_digitChar ‹n < 16›]
    · rw [List.map_append, List.map_singleton, hexNumber_append_one, ih (n / 16) (by omega),
        hexValue_toUpper_digitChar (Nat.mod_lt n (by decide))]
      simp only [Option.bind_some, Option.map_some, Option.some.injEq]
      omega

theorem hexDigits_toList (w n : Nat) :
    (hexDigits w n).toList = List.replicate (w - (Nat.toDigits 16 n).length) '0' ++
      (Nat.toDigits 16 n).map Char.toUpper := by
  simp [hexDigits]

theorem hexNumber_hexDigits (w n : Nat) : hexNumber (hexDigits w n).toList = some n := by
  rw [hexDigits_toList, hexNumber_zeros, hexNumber_toDigits]

theorem hexDigits_length {w n : Nat} (hw : 0 < w) (h : n < 16 ^ w) :
    (hexDigits w n).toList.length = w := by
  have := (Nat.length_toDigits_le_iff (by decide) hw).mpr h
  simp [hexDigits_toList]
  omega

end Hex

theorem runs_scanCodePoint {w : Nat} {c : Char} {m : Mark} (hw : 0 < w) (hc : c.toNat < 16 ^ w)
    (h : s.rest = (hexDigits w c.toNat).toList ++ r) :
    Runs (scanCodePoint w m) s c (s.past (hexDigits w c.toNat).toList) := by
  have hlen := hexDigits_length hw hc
  have hahead : (List.range w).map s.ahead = (hexDigits w c.toNat).toList := by
    apply List.ext_getElem (by simp [hlen])
    intro i hi hi'
    simp only [List.getElem_map, List.getElem_range, s.ahead_eq, h]
    simp [List.getD_eq_getElem?_getD, List.getElem?_append_left hi', List.getElem?_eq_getElem hi']
  have hvalid : ¬((0xD800 ≤ c.toNat ∧ c.toNat ≤ 0xDFFF) ∨ c.toNat > 0x10FFFF) := by
    have := Char.toNat_valid c
    omega
  unfold scanCodePoint
  refine Runs.bind (Runs.get s) ?_
  simp only [hahead, hexNumber_hexDigits]
  rw [if_neg (by simpa using hvalid)]
  have hskip := runs_skipChars h
  rw [hlen] at hskip
  refine Runs.bind hskip ?_
  rw [Char.ofNat_toNat]
  exact Runs.pure _ _

/-- What an escape written for a character is: a backslash and a letter for the characters that
have one, else a backslash, a letter and the character's code point in as many hex digits as
the letter calls for. Either way the letter is no line break. -/
theorem escapeChar_cases (c : Char) :
    (∃ e, (escapeChar c).toList = ['\\', e] ∧ escapeOf e = .char c ∧ isBreak e = false) ∨
    (∃ e w, (escapeChar c).toList = '\\' :: e :: (hexDigits w c.toNat).toList ∧
      escapeOf e = .code w ∧ isBreak e = false ∧ 0 < w ∧ c.toNat < 16 ^ w) := by
  unfold escapeChar
  split
  any_goals exact .inl ⟨_, rfl, rfl, rfl⟩
  have hc : c.toNat < 16 ^ 8 := by
    have := Char.toNat_valid c
    omega
  right
  simp only []
  split
  · exact ⟨'x', 2, by simp [String.toList_append], rfl, rfl, by decide, by omega⟩
  · split
    · exact ⟨'u', 4, by simp [String.toList_append], rfl, rfl, by decide, by omega⟩
    · exact ⟨'U', 8, by simp [String.toList_append], rfl, rfl, by decide, hc⟩

/-- How a character is written between double quotes: as itself, or as its escape. -/
def quotedChars (c : Char) : List Char :=
  if standsUnescaped c then [c] else (escapeChar c).toList

/-- A character that stands for itself between double quotes is no line break, tab, quote,
backslash, or the character past the end of a text. -/
theorem standsUnescaped_facts {c : Char} (h : standsUnescaped c = true) :
    isBreak c = false ∧ c ≠ '\t' ∧ c ≠ endChar ∧ c ≠ '"' ∧ c ≠ '\\' := by
  have hout : ['\r', '\n', '\x85', '\u2028', '\u2029', '\t', endChar, '"', '\\'].all
      (fun d => !standsUnescaped d) = true := by decide
  have hne : ∀ d ∈ ['\r', '\n', '\x85', '\u2028', '\u2029', '\t', endChar, '"', '\\'], c ≠ d := by
    intro d hd heq
    have hd' := List.all_eq_true.mp hout d hd
    rw [← heq, h] at hd'
    cases hd'
  simp only [List.mem_cons, List.not_mem_nil, or_false, forall_eq_or_imp, forall_eq] at hne
  obtain ⟨hr, hn, hx, hl, hp, ht, he, hq, hb⟩ := hne
  refine ⟨?_, ht, he, hq, hb⟩
  simp [isBreak, hr, hn, hx, hl, hp]

theorem isBlankOrEnd_of_standsUnescaped {c : Char} (h : standsUnescaped c = true) (hc : c ≠ ' ') :
    isBlankOrEnd c = false := by
  obtain ⟨hb, ht, he, -, -⟩ := standsUnescaped_facts h
  simp [isBlankOrEnd, isBlank, isBreakOrEnd, hb, ht, he, hc]

/-- One character of a double-quoted scalar, other than a space, is read back from how it was
written. -/
theorem runs_quotedPiece_char {c : Char} {text : String} {m : Mark} {k : Nat} {res : String × Bool}
    {t : Cursor} (hc : c ≠ ' ') (h : s.rest = quotedChars c ++ r)
    (hnext : Runs (quotedPiece false m (text.push c) k) (s.past (quotedChars c)) res t) :
    Runs (quotedPiece false m text (k + 1)) s res t := by
  unfold quotedChars at h hnext
  by_cases hs : standsUnescaped c = true
  · rw [if_pos hs] at h hnext
    obtain ⟨-, -, -, hq, hb⟩ := standsUnescaped_facts hs
    have hq' : (c == '"') = false := by simpa using hq
    have hb' : (c == '\\') = false := by simpa using hb
    have h0 := s.ahead_zero h
    unfold quotedPiece
    refine Runs.bind (Runs.get s) ?_
    simp only [h0, isBlankOrEnd_of_standsUnescaped hs hc, hq', hb', Bool.false_eq_true, if_false,
      Bool.false_and, Bool.and_false, Bool.not_false]
    exact Runs.bind (f := fun text => quotedPiece false m text k) (runs_readChar text h) hnext
  · rw [if_neg hs] at h hnext
    rcases escapeChar_cases c with ⟨e, he, hesc, hbr⟩ | ⟨e, w, he, hesc, hbr, hw, hcw⟩
    · rw [he] at h hnext
      have h0 := s.ahead_zero h
      have h1 := s.ahead_one h
      have hs1 : s.rest = ['\\'] ++ (e :: r) := h
      have hs2 : (s.past ['\\']).rest = [e] ++ r := Cursor.rest_past hs1
      unfold quotedPiece
      refine Runs.bind (Runs.get s) ?_
      simp only [h0, h1, hbr, hesc]
      rw [if_neg (by decide), if_neg (by simp), if_neg (by decide), if_neg (by simp),
        if_pos (by decide)]
      refine Runs.bind (runs_skip hs1) (Runs.bind (runs_skip hs2) ?_)
      rwa [Cursor.past_append]
    · rw [he] at h hnext
      have h0 := s.ahead_zero h
      have h1 := s.ahead_one h
      have hs1 : s.rest = ['\\'] ++ (e :: ((hexDigits w c.toNat).toList ++ r)) := h
      have hs2 := Cursor.rest_past hs1
      have hs3 : ((s.past ['\\']).past [e]).rest = (hexDigits w c.toNat).toList ++ r :=
        Cursor.rest_past (show (s.past ['\\']).rest = [e] ++ _ from hs2)
      unfold quotedPiece
      refine Runs.bind (Runs.get s) ?_
      simp only [h0, h1, hbr, hesc]
      rw [if_neg (by decide), if_neg (by simp), if_neg (by decide), if_neg (by simp),
        if_pos (by decide)]
      refine Runs.bind (runs_skip hs1) (Runs.bind (runs_skip hs2) ?_)
      refine Runs.bind (runs_scanCodePoint hw hcw hs3) ?_
      rwa [Cursor.past_append, Cursor.past_append]

theorem doubleQuoted_toList (t : String) :
    (doubleQuoted t).toList = '"' :: (t.toList.flatMap quotedChars ++ ['"']) := by
  simp only [doubleQuoted, String.toList_append, String.toList_join, List.flatMap_map]
  simp [apply_ite String.toList]
  rfl

/-- The first character written for a character is no line break, quote or end of text; it is a
blank only when the character is a space. -/
theorem quotedChars_head (c : Char) : ∃ d rest, quotedChars c = d :: rest ∧ d ≠ endChar ∧
    isBreak d = false ∧ d ≠ '"' ∧ (c ≠ ' ' → isBlank d = false) := by
  unfold quotedChars
  by_cases hs : standsUnescaped c = true
  · obtain ⟨hb, ht, he, hq, -⟩ := standsUnescaped_facts hs
    refine ⟨c, [], by simp [hs], he, hb, hq, fun hc => ?_⟩
    simp [isBlank, hc, ht]
  · rw [if_neg hs]
    rcases escapeChar_cases c with ⟨e, he, -⟩ | ⟨e, w, he, -⟩ <;>
      exact ⟨'\\', _, he, by decide, rfl, by decide, fun _ => rfl⟩

theorem quotedChars_space : quotedChars ' ' = [' '] := rfl

theorem flatMap_quotedChars_spaces (n : Nat) :
    (List.replicate n ' ').flatMap quotedChars = List.replicate n ' ' := by
  induction n with
  | zero => rfl
  | succ n ih => rw [List.replicate_succ, List.flatMap_cons, ih, quotedChars_space]; rfl

theorem length_le_flatMap_quotedChars (cs : List Char) :
    cs.length ≤ (cs.flatMap quotedChars).length := by
  induction cs with
  | nil => simp
  | cons c cs ih =>
    obtain ⟨d, rest, hd, -⟩ := quotedChars_head c
    simp only [List.flatMap_cons, List.length_append, List.length_cons, hd]
    omega

/-- What a double-quoted text written from `cs` and closed leaves at the cursor: its first
character is no blank (unless `cs` starts with a space), line break or end of text. -/
theorem quotedBody_head (cs : List Char) (r : List Char) :
    ∃ d rest, cs.flatMap quotedChars ++ '"' :: r = d :: rest ∧ d ≠ endChar ∧
      isBreak d = false ∧ (cs.head? ≠ some ' ' → isBlank d = false) ∧
      (cs = [] → d = '"') := by
  cases cs with
  | nil => exact ⟨'"', r, rfl, by decide, rfl, fun _ => rfl, fun _ => rfl⟩
  | cons c cs =>
    obtain ⟨d, rest, hd, he, hb, -, hbl⟩ := quotedChars_head c
    refine ⟨d, rest ++ cs.flatMap quotedChars ++ '"' :: r, by simp [hd], he, hb,
      fun hc => hbl (by simpa using hc), by simp⟩

theorem runs_quotedPiece_stop {text : String} {m : Mark} {k : Nat}
    (h : s.ahead 0 = ' ' ∨ s.ahead 0 = '"') :
    Runs (quotedPiece false m text k) s (text, false) s := by
  cases k with
  | zero => exact Runs.pure _ _
  | succ k =>
    unfold quotedPiece
    refine Runs.bind (Runs.get s) ?_
    rcases h with h | h
    · simp only [h]
      rw [if_pos (by decide)]
      exact Runs.pure _ _
    · simp only [h]
      rw [if_neg (by decide), if_neg (by simp), if_pos (by decide)]
      exact Runs.pure _ _

/-- A word of a double-quoted text, characters other than spaces, is read back from how it was
written, up to the space or quote after it. -/
theorem runs_quotedPiece_word {w : List Char} {text : String} {m : Mark} {k : Nat}
    (hw : ∀ c ∈ w, c ≠ ' ') (h : s.rest = w.flatMap quotedChars ++ r)
    (hr : r.head? = some ' ' ∨ r.head? = some '"') (hk : w.length ≤ k) :
    Runs (quotedPiece false m text k) s (text ++ String.ofList w, false)
      (s.past (w.flatMap quotedChars)) := by
  induction w generalizing s text k with
  | nil =>
    have h0 : s.ahead 0 = ' ' ∨ s.ahead 0 = '"' := by
      rcases hr with hr | hr <;> simp [s.ahead_eq, h, List.head?_eq_getElem?] at hr ⊢ <;> simp [hr]
    simpa using runs_quotedPiece_stop h0
  | cons c w ih =>
    obtain ⟨k, rfl⟩ : ∃ j, k = j + 1 := ⟨k - 1, by simp at hk; omega⟩
    rw [List.flatMap_cons, List.append_assoc] at h
    refine runs_quotedPiece_char (hw c (by simp)) h ?_
    have hrun : Runs (quotedPiece false m (text.push c) k) (s.past (quotedChars c))
        (text.push c ++ String.ofList w, false) ((s.past (quotedChars c)).past (w.flatMap quotedChars)) :=
      ih (fun d hd => hw d (by simp [hd])) (Cursor.rest_past h) (by simp at hk; omega)
    have htext : text.push c ++ String.ofList w = text ++ String.ofList (c :: w) :=
      String.toList_inj.mp (by simp)
    rwa [htext, Cursor.past_append, ← List.flatMap_cons] at hrun

theorem runs_quotedGap_spaces {n k : Nat} {f : Folding}
    (h : s.rest = List.replicate n ' ' ++ r) (hr : GapStop r) (hb : f.brokeLine = false)
    (hk : n ≤ k) :
    Runs (quotedGap f k) s { f with blanks := f.blanks ++ String.ofList (List.replicate n ' ') }
      (s.past (List.replicate n ' ')) := by
  induction n generalizing s k f with
  | zero =>
    have hf : { f with blanks := f.blanks ++ String.ofList (List.replicate 0 ' ') } = f := by
      simp
    rw [hf, List.replicate_zero, Cursor.past_nil]
    cases k with
    | zero => exact Runs.pure _ _
    | succ k =>
      unfold quotedGap
      refine Runs.bind (runs_peekAt _ 0) ?_
      simp only [show s.rest = r from h, hr.1, hr.2, Bool.false_eq_true, if_false]
      exact Runs.pure _ _
  | succ n ih =>
    obtain ⟨k, rfl⟩ : ∃ j, k = j + 1 := ⟨k - 1, by omega⟩
    have hs : s.rest = ' ' :: (List.replicate n ' ' ++ r) := by rw [h, List.replicate_succ]; rfl
    unfold quotedGap
    refine Runs.bind (runs_peekAt _ 0) ?_
    simp only [hs, List.getD_cons_zero, show isBlank ' ' = true from rfl, if_true, hb,
      Bool.false_eq_true, if_false]
    refine Runs.bind (runs_readChar _ hs) ?_
    have hrun := ih (k := k) (f := { f with blanks := f.blanks.push ' ' })
      (Cursor.rest_past (show s.rest = [' '] ++ _ from hs)) hb (by omega)
    have hbl : (f.blanks.push ' ') ++ String.ofList (List.replicate n ' ') =
        f.blanks ++ String.ofList (List.replicate (n + 1) ' ') :=
      String.toList_inj.mp (by simp [List.replicate_succ])
    simp only [hbl, hb] at hrun
    rwa [Cursor.past_append, List.singleton_append, ← List.replicate_succ] at hrun

/-- A text splits into a first word without spaces, the spaces after it, and a rest that does not
start with a space: what one round of the quoted scanner reads. The rest is empty when no space
follows the word, and shorter than the text unless the text is empty. -/
theorem exists_word_split (cs : List Char) : ∃ w n rest, cs = w ++ List.replicate n ' ' ++ rest ∧
    (∀ c ∈ w, c ≠ ' ') ∧ rest.head? ≠ some ' ' ∧ (n = 0 → rest = []) ∧
    (cs ≠ [] → rest.length < cs.length) := by
  induction cs with
  | nil => exact ⟨[], 0, [], rfl, by simp, by simp, fun _ => rfl, fun h => (h rfl).elim⟩
  | cons c cs ih =>
    obtain ⟨w, n, rest, heq, hw, hh, hn, -⟩ := ih
    have hlen : rest.length ≤ cs.length := by simp [heq]; omega
    by_cases hc : c = ' '
    · subst hc
      cases w with
      | nil =>
        refine ⟨[], n + 1, rest, by simp [heq, List.replicate_succ], by simp, hh, by simp, ?_⟩
        intro _
        simp only [List.length_cons]
        omega
      | cons d w =>
        refine ⟨[], 1, d :: w ++ List.replicate n ' ' ++ rest, by simp [heq], by simp, ?_, by simp,
          by simp [heq]⟩
        simpa using hw d (by simp)
    · exact ⟨c :: w, n, rest, by simp [heq], by simpa [hc] using hw, hh, hn,
        fun _ => by simp; omega⟩

/-- The words of a double-quoted text and the spaces between them are read up to the closing
quote, which is left unread. -/
theorem runs_quotedLines {cs : List Char} {m : Mark} {k L : Nat} {f : Folding}
    (h : s.rest = cs.flatMap quotedChars ++ '"' :: r) (hcol : s.mark.column ≠ 0)
    (hb : f.brokeLine = false) (hs : f.blanks = "") (hk : cs.length ≤ k) (hL : cs.length < L) :
    Runs (quotedLines false m k f L) s (f.text ++ String.ofList cs)
      (s.past (cs.flatMap quotedChars)) := by
  induction L generalizing cs s f with
  | zero => omega
  | succ L ih =>
    obtain ⟨w, n, rest, heq, hw, hh, hn, hl⟩ := exists_word_split cs
    obtain ⟨d, _, hd, hde, -, -, -⟩ := quotedBody_head cs r
    have hsplit : s.rest = w.flatMap quotedChars ++
        (List.replicate n ' ' ++ rest.flatMap quotedChars ++ '"' :: r) := by
      rw [h, heq]
      simp [List.flatMap_append, flatMap_quotedChars_spaces]
    have hwk : w.length ≤ k := by rw [heq] at hk; simp at hk; omega
    unfold quotedLines
    refine Runs.bind (Runs.get s) ?_
    rw [if_neg (by simp [Cursor.atDocumentMarker, hcol])]
    rw [if_neg (by simp [s.ahead_zero (h.trans hd), hde])]
    by_cases hn0 : n = 0
    · -- the word runs up to the closing quote
      have hr : rest = [] := hn hn0
      subst hn0 hr
      simp only [List.replicate_zero, List.nil_append, List.flatMap_nil, List.append_nil] at hsplit heq
      subst heq
      refine Runs.bind (runs_quotedPiece_word hw hsplit (.inr rfl) hwk) ?_
      refine Runs.bind (runs_peekAt _ 0) ?_
      rw [Cursor.rest_past hsplit, List.getD_cons_zero, if_pos (by decide)]
      exact Runs.pure _ _
    · -- the word ends at a space: the spaces are read as blanks before the next round
      obtain ⟨n, rfl⟩ : ∃ j, n = j + 1 := ⟨n - 1, by omega⟩
      have hafter := Cursor.rest_past hsplit
      refine Runs.bind (runs_quotedPiece_word hw hsplit (.inl (by simp [List.replicate_succ])) hwk) ?_
      refine Runs.bind (runs_peekAt _ 0) ?_
      rw [hafter, List.replicate_succ, List.cons_append, List.cons_append, List.getD_cons_zero,
        if_neg (by decide)]
      obtain ⟨e, _, he, -, heb, hebl, -⟩ := quotedBody_head rest r
      have hstop : GapStop (rest.flatMap quotedChars ++ '"' :: r) := by
        rw [he]
        exact ⟨hebl hh, heb⟩
      refine Runs.bind (runs_quotedGap_spaces (by rw [hafter, List.append_assoc]) hstop rfl
        (by rw [heq] at hk; simp at hk; omega)) ?_
      have hcs : cs ≠ [] := by simp [heq]
      have hrun := ih
        (f := { f with text := (f.text ++ String.ofList w) ++
          String.ofList (List.replicate (n + 1) ' '), blanks := "" })
        (Cursor.rest_past (show _ = _ ++ (rest.flatMap quotedChars ++ '"' :: r) by
          rw [hafter, List.append_assoc]))
        (by simp) hb rfl (by have := hl hcs; omega) (by have := hl hcs; omega)
      have htext : (f.text ++ String.ofList w ++ String.ofList (List.replicate (n + 1) ' ')) ++
          String.ofList rest = f.text ++ String.ofList cs :=
        String.toList_inj.mp (by simp [heq])
      have hflat : cs.flatMap quotedChars = w.flatMap quotedChars ++ List.replicate (n + 1) ' ' ++
          rest.flatMap quotedChars := by
        rw [heq, List.flatMap_append, List.flatMap_append, flatMap_quotedChars_spaces]
      simp only [hs, joinPieces, String.empty_append, Bool.false_eq_true, if_false]
      rw [hb, htext, Cursor.past_append, Cursor.past_append] at hrun
      rwa [Cursor.past_append, hflat]

theorem runs_scanQuoted {t : String} (h : s.rest = (doubleQuoted t).toList ++ r) :
    Runs (scanQuoted false) s
      ⟨.scalar t .doubleQuoted, s.mark, (s.past (doubleQuoted t).toList).mark⟩
      (s.past (doubleQuoted t).toList) := by
  rw [doubleQuoted_toList] at h ⊢
  have hs1 : s.rest = ['"'] ++ (t.toList.flatMap quotedChars ++ '"' :: r) := by rw [h]; simp
  have hbody := Cursor.rest_past hs1
  have hclose : ((s.past ['"']).past (t.toList.flatMap quotedChars)).rest = ['"'] ++ r :=
    Cursor.rest_past hbody
  have hlen := s.rest_length_le
  have hle := length_le_flatMap_quotedChars t.toList
  rw [h] at hlen
  simp only [List.length_cons, List.length_append] at hlen
  unfold scanQuoted
  refine Runs.bind (Runs.get s) ?_
  refine Runs.bind (runs_skip hs1) ?_
  refine Runs.bind (runs_quotedLines (m := s.mark) (f := Folding.empty) hbody (by simp) rfl rfl
    (by rw [Cursor.fuel_eq]; omega) (by rw [Cursor.fuel_eq]; omega)) ?_
  refine Runs.bind (runs_skip hclose) ?_
  refine Runs.bind (Runs.get _) ?_
  have ht : Folding.empty.text ++ String.ofList t.toList = t := by simp [Folding.empty]
  rw [ht, Cursor.past_append, Cursor.past_append]
  exact Runs.pure _ _

end ComponentSync.Yaml
