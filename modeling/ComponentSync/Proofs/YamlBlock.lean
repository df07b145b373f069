import ComponentSync.Proofs.YamlLines
/-! Mappings written in block style, one entry per line. The writer puts a scalar on the line of
its key, a nested mapping on the lines after its key, indented two more, and a sequence as
`- item` lines at the key's own indentation. The lemmas below give the lines of such a mapping,
show that the tokenizer reads them as written, and give the tokens it yields: the nested
mappings open and close around their entries, and the sequences need neither. -/
namespace ComponentSync.Yaml

/-! ### Scalars -/

/-- The values the writer puts on the line of their key or entry and reads back as they were:
strings and natural numbers. -/
inductive Scalar : Value → Prop
  | str (s : String) : Scalar (.str s)
  | nat (n : Nat) : Scalar (.int n)

/-- How the writer writes a scalar: a string plain when that is safe and quoted otherwise, a
number in decimal. -/
def scalarWritten : Value → Written
  | .str s => if isPlainSafe s then .plain s else .quoted s
  | .int i => .plain (toString i)
  | _ => .plain ""

theorem Char.toNat_of_isAlphanum {c : Char} (h : c.isAlphanum = true) :
    48 ≤ c.toNat ∧ c.toNat ≤ 122 := by
  simp only [Char.isAlphanum, Char.isAlpha, Char.isUpper, Char.isLower, Char.isDigit,
    Bool.or_eq_true, Bool.and_eq_true, decide_eq_true_eq, UInt32.le_iff_toNat_le, ge_iff_le] at h
  change ((65 ≤ c.toNat ∧ c.toNat ≤ 90) ∨ (97 ≤ c.toNat ∧ c.toNat ≤ 122)) ∨
    (48 ≤ c.toNat ∧ c.toNat ≤ 57) at h
  omega

def SafeChar (c : Char) : Prop :=
  c.isAlphanum = true ∨ c ∈ ['-', '_', '.', '/', ':', '@', '+', '=']

theorem SafeChar.plain {c : Char} (h : SafeChar c) : PlainChar c ∧ isPrintable c = true := by
  rcases h with h | h
  · have hn := Char.toNat_of_isAlphanum h
    have hne : ∀ d : Char, d.toNat < 48 → c ≠ d := fun d hd hcd => by subst hcd; omega
    refine ⟨⟨hne ' ' (by decide), hne '\t' (by decide), ?_, hne endChar (by decide)⟩, ?_⟩
    · simp only [isBreak, Bool.or_eq_false_iff, beq_eq_false_iff_ne]
      refine ⟨⟨⟨⟨hne '\r' (by decide), hne '\n' (by decide)⟩, fun e => ?_⟩, fun e => ?_⟩,
        fun e => ?_⟩ <;> (subst e; simp at hn)
    · simp only [isPrintable, Bool.or_eq_true, Bool.and_eq_true, beq_iff_eq, decide_eq_true_eq]
      omega
  · simp only [List.mem_cons, List.not_mem_nil, or_false] at h
    rcases h with rfl | rfl | rfl | rfl | rfl | rfl | rfl | rfl <;>
      exact ⟨⟨by decide, by decide, by decide, by decide⟩, by decide⟩

/-- What a plain-safe string is made of: it starts like a plain scalar, its characters are safe,
and it does not end with `:`. -/
theorem plainSafe_cons {s : String} (h : isPlainSafe s = true) :
    ∃ c cs, s.toList = c :: cs ∧ PlainStart c ∧ (∀ d ∈ s.toList, SafeChar d) ∧
      s.toList.getLast? ≠ some ':' := by
  unfold isPlainSafe at h
  obtain ⟨c, cs, hcs⟩ : ∃ c cs, s.toList = c :: cs := by
    cases hs : s.toList with
    | nil => simp [hs] at h
    | cons c cs => exact ⟨c, cs, rfl⟩
  simp only [hcs, Bool.and_eq_true, Bool.not_eq_true', List.all_eq_true] at h
  obtain ⟨⟨⟨⟨hc, hall⟩, hend⟩, -⟩, -⟩ := h
  refine ⟨c, cs, hcs, hc, fun d hd => ?_, fun hl => ?_⟩
  · have := hall d (hcs ▸ hd)
    simp only [Bool.or_eq_true] at this
    rcases this with h | h
    · exact .inl h
    · exact .inr (by simpa [String.contains] using h)
  · obtain ⟨init, hinit⟩ := List.getLast?_eq_some_iff.mp hl
    have : s.endsWith ":" = true := by
      rw [String.endsWith_eq_endsWith_toSlice, String.Slice.endsWith_string_iff]
      simp [hinit]
    simp [this] at hend

/-- A plain scalar of safe characters that starts like a plain scalar and does not end with `:`
is read back as written. -/
theorem Written.valid_of_safe {p : String} {c : Char} {cs : List Char} (hcs : p.toList = c :: cs)
    (hc : PlainStart c) (hall : ∀ d ∈ p.toList, SafeChar d) (hlast : p.toList.getLast? ≠ some ':') :
    (Written.plain p).Valid := by
  refine ⟨⟨by simp [hcs], fun d hd => (hall d hd).plain.1, fun h => ?_, hlast⟩, ⟨c, cs, hcs, hc⟩,
    fun d hd => (hall d hd).plain.2⟩
  simp only [hcs, List.head?_cons, Option.some.injEq] at h
  subst h
  simp [PlainStart] at hc

theorem Written.valid_of_plainSafe {s : String} (h : isPlainSafe s = true) :
    (Written.plain s).Valid := by
  obtain ⟨c, cs, hcs, hc, hall, hlast⟩ := plainSafe_cons h
  exact Written.valid_of_safe hcs hc hall hlast

theorem toString_natCast_toList (n : Nat) : (toString (n : Int)).toList = Nat.toDigits 10 n := by
  show (Int.repr (Int.ofNat n)).toList = _
  simp [Int.repr, Nat.repr]

theorem Written.valid_digits (n : Nat) : (Written.plain (toString (n : Int))).Valid := by
  have hdigit : ∀ d ∈ (toString (n : Int)).toList, d.isDigit = true := fun d hd =>
    Nat.isDigit_of_mem_toDigits (by decide) (by decide) (toString_natCast_toList n ▸ hd)
  have hsafe : ∀ d ∈ (toString (n : Int)).toList, SafeChar d := fun d hd =>
    .inl (by simp [Char.isAlphanum, hdigit d hd])
  obtain ⟨c, cs, hcs⟩ := List.exists_cons_of_ne_nil
    (show (toString (n : Int)).toList ≠ [] by rw [toString_natCast_toList]; exact Nat.toDigits_ne_nil)
  refine Written.valid_of_safe hcs ?_ hsafe fun h => ?_
  · have := hdigit c (by rw [hcs]; exact List.mem_cons_self)
    simp [PlainStart, Char.isAlphanum, this]
  · have := hdigit ':' (List.mem_of_getLast? h)
    simp at this

/-- A key the writer writes plain, and the tokenizer reads as a possible key up to its `:`. -/
structure PlainKey (k : String) : Prop where
  safe : isPlainSafe k = true
  noDot : k.toList.head? ≠ some '.'
  short : utf8Length k.toList ≤ 1024

theorem PlainKey.keyText {k : String} (h : PlainKey k) : KeyText k :=
  ⟨Written.valid_of_plainSafe h.safe, h.noDot, h.short⟩

theorem PlainKey.written {k : String} (h : PlainKey k) : writeString k = k := by
  simp [writeString, h.safe]

theorem Scalar.valid {v : Value} (h : Scalar v) : (scalarWritten v).Valid := by
  cases h with
  | str s =>
    by_cases hs : isPlainSafe s = true
    · simpa [scalarWritten, hs] using Written.valid_of_plainSafe hs
    · simp [scalarWritten, hs, Written.Valid]
  | nat n => exact Written.valid_digits n

theorem Scalar.inline {v : Value} (h : Scalar v) :
    inlineText v = some (String.ofList (scalarWritten v).chars) := by
  cases h with
  | str s =>
    by_cases hs : isPlainSafe s = true
    · simp [inlineText, writeString, scalarWritten, hs, Written.chars]
    · simp [inlineText, writeString, scalarWritten, hs, Written.chars]
  | nat n =>
    simp only [inlineText, scalarWritten, Written.chars, String.ofList_toList]

/-! ### Mappings in block style -/

/-- The entries of a mapping the writer puts one per line, each read back as written: plain
keys, scalar values on the key's line, nested mappings and sequences of scalars after it, none
of them empty. -/
inductive Entries : List (String × Value) → Prop
  | nil : Entries []
  | scalar {k : String} {v : Value} {es : List (String × Value)} :
      PlainKey k → Scalar v → Entries es → Entries ((k, v) :: es)
  | seq {k : String} {items : List Value} {es : List (String × Value)} :
      PlainKey k → items ≠ [] → (∀ x ∈ items, Scalar x) → Entries es →
        Entries ((k, .seq items) :: es)
  | map {k : String} {inner es : List (String × Value)} :
      PlainKey k → inner ≠ [] → Entries inner → Entries es → Entries ((k, .map inner) :: es)

/-- The lines of mapping entries whose keys stand at column `c`. -/
def entriesLines (c : Nat) : List (String × Value) → List Line
  | [] => []
  | (k, .map inner) :: es => ⟨c, .opens k⟩ :: (entriesLines (c + 2) inner ++ entriesLines c es)
  | (k, .seq items) :: es =>
    ⟨c, .opens k⟩ :: (items.map fun x => ⟨c, .item (scalarWritten x)⟩) ++ entriesLines c es
  | (k, v) :: es => ⟨c, .pair k (scalarWritten v)⟩ :: entriesLines c es

/-- The text of written lines, each ended by a line feed. -/
def linesText (ls : List String) : List Char := (String.join (ls.map (· ++ "\n"))).toList

@[simp] theorem linesText_nil : linesText [] = [] := rfl

@[simp] theorem linesText_cons (x : String) (xs : List String) :
    linesText (x :: xs) = x.toList ++ '\n' :: linesText xs := by
  simp [linesText]

@[simp] theorem linesText_append (xs ys : List String) :
    linesText (xs ++ ys) = linesText xs ++ linesText ys := by
  simp [linesText]

theorem indentText_toList (c : Nat) : (indentText c).toList = List.replicate c ' ' := by
  simp [indentText]

theorem itemLines_text (c : Nat) {items : List Value} (h : ∀ x ∈ items, Scalar x) :
    linesText (itemLines c items) =
      (items.map fun x => (⟨c, .item (scalarWritten x)⟩ : Line)).flatMap Line.chars := by
  induction items with
  | nil => simp [itemLines]
  | cons x items ih =>
    have hx := (h x (by simp)).inline
    rw [itemLines, hx]
    simp [ih fun y hy => h y (by simp [hy]), Line.chars, Body.chars, indentText_toList]

theorem entryLines_text {es : List (String × Value)} (h : Entries es) (c : Nat) :
    linesText (entryLines c es) = (entriesLines c es).flatMap Line.chars := by
  induction h generalizing c with
  | nil => simp [entryLines, entriesLines]
  | @scalar k v es hk hv _ ih =>
    have hin := hv.inline
    cases hv <;>
      simp [entryLines, entryBlock, hin, entriesLines, ih, Line.chars, Body.chars, hk.written,
        indentText_toList]
  | @seq k items es hk hne hitems _ ih =>
    obtain ⟨x, xs, rfl⟩ := List.exists_cons_of_ne_nil hne
    rw [entryLines, entryBlock]
    simp [inlineText, entriesLines, ih, itemLines_text c hitems, Line.chars, Body.chars,
      hk.written, indentText_toList]
  | @map k inner es hk hne _ _ ihi ih =>
    obtain ⟨e, rest, rfl⟩ := List.exists_cons_of_ne_nil hne
    rw [entryLines, entryBlock]
    simp [inlineText, entriesLines, ih, ihi, Line.chars, Body.chars, hk.written,
      indentText_toList]

theorem toYaml_map_text {es : List (String × Value)} (h : Entries es) :
    (Value.map es).toYaml.toList = (entriesLines 0 es).flatMap Line.chars := by
  rw [← entryLines_text h]
  rfl

/-! ### Lines closed by a shallower one -/

section Closing

variable {x : Int} {S : List Int} {l : Line} {ls : List Line}

theorem closings_cons_of_lt {col : Int} (h : col < x) (S : List Int) :
    closings col (x :: S) = x :: closings col S := by
  simp [closings, h]

theorem closedTo_cons_of_lt {col : Int} (h : col < x) (S : List Int) :
    closedTo col (x :: S) = closedTo col S := by
  simp [closedTo, h]

/-- What a line reads of the stack lies at or above its column: a block deeper than the line
only adds its end. -/
theorem Line.fits_cons (h : (l.column : Int) < x) : l.Fits (x :: S) ls ↔ l.Fits S ls := by
  unfold Line.Fits
  rw [closedTo_cons_of_lt h]

theorem Line.stack_cons (h : (l.column : Int) < x) : l.stack (x :: S) = l.stack S := by
  simp [Line.stack, Line.opens, closedTo_cons_of_lt h]

theorem Line.tokens_cons (h : (l.column : Int) < x) :
    l.tokens (x :: S) = .blockEnd :: l.tokens S := by
  simp [Line.tokens, Line.opens, closings_cons_of_lt h, closedTo_cons_of_lt h,
    List.replicate_succ]

/-- A block deeper than the next line is closed by it, and does not change whether the lines
fit. -/
theorem LinesFit.pop (h : ∀ n ∈ ls.head?, (n.column : Int) < x) :
    LinesFit (x :: S) ls ↔ LinesFit S ls := by
  cases ls with
  | nil => exact Iff.rfl
  | cons l ls =>
    have hl := h l rfl
    simp only [LinesFit, Line.fits_cons hl, Line.stack_cons hl]

theorem linesTokens_pop (h : ∀ n ∈ ls.head?, (n.column : Int) < x) (hS : S ≠ []) :
    linesTokens (x :: S) ls = .blockEnd :: linesTokens S ls := by
  cases ls with
  | nil =>
    obtain ⟨y, S, rfl⟩ := List.exists_cons_of_ne_nil hS
    simp [linesTokens, List.replicate_succ]
  | cons l ls => simp [linesTokens, Line.tokens_cons (h l rfl), Line.stack_cons (h l rfl)]

def Body.isKey : Body → Bool
  | .item _ => false
  | _ => true

theorem closedTo_self (c : Int) (S : List Int) : closedTo c (c :: S) = c :: S := by
  simp [closedTo]

theorem closings_self (c : Int) (S : List Int) : closings c (c :: S) = [] := by
  simp [closings]

theorem closedTo_of_head_lt {c : Int} (hS : S.headD (-1) < c) :
    closings c S = [] ∧ closedTo c S = S := by
  cases S with
  | nil => exact ⟨rfl, rfl⟩
  | cons y S =>
    have : ¬(c < y) := by simp at hS; omega
    simp [closings, closedTo, this]

theorem Line.opens_self (l : Line) (S : List Int) : l.opens ((l.column : Int) :: S) = false := by
  simp [Line.opens, closedTo_self]

theorem Line.stack_self (c : Nat) (b : Body) (S : List Int) :
    Line.stack ((c : Int) :: S) ⟨c, b⟩ = (c : Int) :: S := by
  simp [Line.stack, Line.opens, closedTo_self]

theorem Line.stack_of_head_lt (hS : S.headD (-1) < l.column) :
    l.stack S = (l.column : Int) :: S := by
  have hc := (closedTo_of_head_lt hS).2
  have hopen : l.opens S = true := by
    simp only [Line.opens, hc, decide_eq_true_eq]
    exact hS
  simp only [Line.stack, hopen, if_true, hc]

theorem LinesFit.open_key (hk : l.body.isKey = true) (hS : S.headD (-1) < l.column) :
    LinesFit S (l :: ls) ↔ LinesFit (l.column :: S) (l :: ls) := by
  have hstack : l.stack S = l.stack (l.column :: S) := by
    rw [Line.stack_of_head_lt hS]
    exact (Line.stack_self l.column l.body S).symm
  obtain ⟨column, body⟩ := l
  cases body with
  | item v => simp [Body.isKey] at hk
  | pair k v => simp only [LinesFit, Line.Fits, hstack]
  | opens k => simp only [LinesFit, Line.Fits, hstack]

theorem linesTokens_open_key (hk : l.body.isKey = true) (hS : S.headD (-1) < l.column) :
    linesTokens S (l :: ls) = .blockMappingStart :: linesTokens (l.column :: S) (l :: ls) := by
  have hc := (closedTo_of_head_lt hS).1
  have hopen : l.opens S = true := by
    simp only [Line.opens, (closedTo_of_head_lt hS).2, decide_eq_true_eq]
    exact hS
  have hstack : l.stack S = l.stack (l.column :: S) := by
    rw [Line.stack_of_head_lt hS]
    exact (Line.stack_self l.column l.body S).symm
  simp only [linesTokens, Line.tokens, hc, closings_self, hopen, Line.opens_self, hstack]
  obtain ⟨column, body⟩ := l
  cases body with
  | item v => simp [Body.isKey] at hk
  | pair k v => simp [Body.tokens]
  | opens k => simp [Body.tokens]

end Closing

/-! ### Mappings read line by line -/

/-- The tokens of mapping entries, between the start and the end of their mapping: each key
with its value, a nested mapping opening and closing around its entries, and each entry of a
sequence after its `-`. -/
def entriesTokens : List (String × Value) → List TokenKind
  | [] => []
  | (k, .map inner) :: es =>
    [.key, .scalar k .plain, .value, .blockMappingStart] ++ entriesTokens inner ++
      .blockEnd :: entriesTokens es
  | (k, .seq items) :: es =>
    [.key, .scalar k .plain, .value] ++
      items.flatMap (fun x => [.blockEntry, (scalarWritten x).token]) ++ entriesTokens es
  | (k, v) :: es => [.key, .scalar k .plain, .value, (scalarWritten v).token] ++ entriesTokens es

theorem Entries.lines_head {es : List (String × Value)} (h : Entries es) (c : Nat) :
    ∀ l ∈ (entriesLines c es).head?, l.column = c ∧ l.body.isKey = true := by
  cases h with
  | nil => simp [entriesLines]
  | @scalar k v es _ hv _ => cases hv <;> simp [entriesLines, Body.isKey]
  | seq => simp [entriesLines, Body.isKey]
  | map => simp [entriesLines, Body.isKey]

theorem Entries.lines_ne_nil {es : List (String × Value)} (h : Entries es) (hne : es ≠ [])
    (c : Nat) : entriesLines c es ≠ [] := by
  cases h with
  | nil => exact absurd rfl hne
  | @scalar k v es _ hv _ => cases hv <;> simp [entriesLines]
  | seq => simp [entriesLines]
  | map => simp [entriesLines]

theorem head_le_of_entries {es : List (String × Value)} (h : Entries es) {c : Nat}
    {rest : List Line} (hrest : ∀ n ∈ rest.head?, n.column < c) :
    ∀ n ∈ (entriesLines c es ++ rest).head?, n.column ≤ c := by
  intro n hn
  rw [List.head?_append] at hn
  cases hl : (entriesLines c es).head? with
  | none => simp [hl] at hn; exact Nat.le_of_lt (hrest n hn)
  | some l =>
    simp [hl] at hn
    subst hn
    exact Nat.le_of_eq (h.lines_head c l hl).1

/-- The `- item` lines of a sequence under a key at column `c` fit, up to lines no deeper than
`c`. -/
theorem items_fit {c : Nat} {S : List Int} {items : List Value} (h : ∀ x ∈ items, Scalar x)
    {rest : List Line} (hrest : LinesFit (c :: S) rest) (hhead : ∀ n ∈ rest.head?, n.column ≤ c) :
    LinesFit (c :: S) ((items.map fun x => (⟨c, .item (scalarWritten x)⟩ : Line)) ++ rest) := by
  induction items with
  | nil => exact hrest
  | cons x items ih =>
    have hx := h x (by simp)
    have hnext : ∀ n ∈ ((items.map fun x => (⟨c, .item (scalarWritten x)⟩ : Line)) ++ rest).head?,
        n.column ≤ c := by
      cases items with
      | nil => simpa using hhead
      | cons y ys => simp
    refine ⟨⟨by simp [closedTo_self], hx.valid, fun _ => hnext⟩, ?_⟩
    rw [Line.stack_self]
    exact ih fun y hy => h y (by simp [hy])

theorem entries_fit {es : List (String × Value)} (h : Entries es) :
    ∀ {c : Nat} {S : List Int} {R : List Line}, LinesFit S R →
      (∀ n ∈ R.head?, n.column < c) → LinesFit (c :: S) (entriesLines c es ++ R) := by
  induction h with
  | nil =>
    intro c S rest hrest hhead
    rw [entriesLines, List.nil_append]
    exact (LinesFit.pop fun n hn => by exact_mod_cast hhead n hn).mpr hrest
  | @scalar k v es hk hv hes ih =>
    intro c S rest hrest hhead
    have hnext := head_le_of_entries hes hhead
    have hline : LinesFit (c :: S) (⟨c, .pair k (scalarWritten v)⟩ :: (entriesLines c es ++ rest)) :=
      ⟨⟨hk.keyText, hv.valid, fun _ => hnext⟩, by rw [Line.stack_self]; exact ih hrest hhead⟩
    cases hv <;> simpa [entriesLines] using hline
  | @seq k items es hk hne hitems hes ih =>
    intro c S rest hrest hhead
    rw [entriesLines, List.cons_append]
    refine ⟨hk.keyText, ?_⟩
    rw [Line.stack_self]
    simp only [List.append_eq, List.append_assoc]
    exact items_fit hitems (ih hrest hhead) (head_le_of_entries hes hhead)
  | @map k inner es hk hne hinner hes ihi ih =>
    intro c S rest hrest hhead
    rw [entriesLines, List.cons_append]
    refine ⟨hk.keyText, ?_⟩
    rw [Line.stack_self, List.append_assoc]
    obtain ⟨l, ls, hls⟩ := List.exists_cons_of_ne_nil (hinner.lines_ne_nil hne (c + 2))
    obtain ⟨hcol, hkey⟩ := hinner.lines_head (c + 2) l (by simp [hls])
    have hdeeper : (c : Int) < l.column := by omega
    have := ihi (c := c + 2) (S := (c : Int) :: S) (ih hrest hhead)
      (fun n hn => Nat.lt_of_le_of_lt (head_le_of_entries hes hhead n hn) (by omega))
    rw [hls, List.cons_append] at this ⊢
    rw [LinesFit.open_key hkey (by simpa using hdeeper), hcol]
    exact_mod_cast this

theorem Line.tokens_self (c : Nat) (b : Body) (S : List Int) :
    Line.tokens ((c : Int) :: S) ⟨c, b⟩ = b.tokens false := by
  simp [Line.tokens, Line.opens, closings_self, closedTo_self]

theorem items_tokens {c : Nat} {S : List Int} (items : List Value) (rest : List Line) :
    linesTokens ((c : Int) :: S) ((items.map fun x => (⟨c, .item (scalarWritten x)⟩ : Line)) ++ rest) =
      items.flatMap (fun x => [.blockEntry, (scalarWritten x).token]) ++
        linesTokens ((c : Int) :: S) rest := by
  induction items with
  | nil => rfl
  | cons x items ih =>
    simp only [List.map_cons, List.cons_append, linesTokens, Line.tokens_self, Line.stack_self, ih]
    simp [Body.tokens]

/-- The tokens of the lines of entries at column `c`, in a block at `c`, up to lines shallower
than `c`: the entries' tokens, then the end of the block. -/
theorem entries_tokens {es : List (String × Value)} (h : Entries es) :
    ∀ {c : Nat} {S : List Int} {R : List Line}, S ≠ [] → (∀ n ∈ R.head?, n.column < c) →
      linesTokens ((c : Int) :: S) (entriesLines c es ++ R) =
        entriesTokens es ++ .blockEnd :: linesTokens S R := by
  induction h with
  | nil =>
    intro c S rest hS hhead
    rw [entriesLines, List.nil_append, entriesTokens, List.nil_append]
    exact linesTokens_pop (fun n hn => by exact_mod_cast hhead n hn) hS
  | @scalar k v es hk hv hes ih =>
    intro c S rest hS hhead
    have hline : linesTokens ((c : Int) :: S)
        (⟨c, .pair k (scalarWritten v)⟩ :: (entriesLines c es ++ rest)) =
          [.key, .scalar k .plain, .value, (scalarWritten v).token] ++ entriesTokens es ++
            .blockEnd :: linesTokens S rest := by
      simp [linesTokens, Line.tokens_self, Line.stack_self, ih hS hhead, Body.tokens]
    cases hv <;> simpa [entriesLines, entriesTokens] using hline
  | @seq k items es hk hne hitems hes ih =>
    intro c S rest hS hhead
    simp [entriesLines, entriesTokens, linesTokens, Line.tokens_self, Line.stack_self,
      items_tokens, ih hS hhead, Body.tokens]
  | @map k inner es hk hne hinner hes ihi ih =>
    intro c S rest hS hhead
    obtain ⟨l, ls, hls⟩ := List.exists_cons_of_ne_nil (hinner.lines_ne_nil hne (c + 2))
    obtain ⟨hcol, hkey⟩ := hinner.lines_head (c + 2) l (by simp [hls])
    have hinnerTokens := ihi (c := c + 2) (S := (c : Int) :: S) (R := entriesLines c es ++ rest)
      (by simp) (fun n hn => Nat.lt_of_le_of_lt (head_le_of_entries hes hhead n hn) (by omega))
    have hopen : linesTokens ((c : Int) :: S) (entriesLines (c + 2) inner ++ (entriesLines c es ++ rest)) =
        .blockMappingStart ::
          linesTokens (((c + 2 : Nat) : Int) :: (c : Int) :: S)
            (entriesLines (c + 2) inner ++ (entriesLines c es ++ rest)) := by
      rw [hls, List.cons_append, linesTokens_open_key hkey (by simp; omega), hcol]
    rw [entriesLines, List.cons_append, linesTokens, Line.tokens_self, Line.stack_self,
      List.append_assoc, hopen, hinnerTokens, ih hS hhead]
    simp [entriesTokens, Body.tokens]

/-- The tokens of a mapping written in block style at the start of a text: the mapping opens,
its entries follow, and the stream ends after the mapping's end. -/
theorem mapping_tokens {es : List (String × Value)} (h : Entries es) (hne : es ≠ []) :
    linesTokens [-1] (entriesLines 0 es) =
      .blockMappingStart :: (entriesTokens es ++ [.blockEnd, .streamEnd]) := by
  obtain ⟨l, ls, hls⟩ := List.exists_cons_of_ne_nil (h.lines_ne_nil hne 0)
  obtain ⟨hcol, hkey⟩ := h.lines_head 0 l (by simp [hls])
  have hend := entries_tokens h (c := 0) (S := [-1]) (R := []) (by simp) (by simp)
  rw [List.append_nil] at hend
  rw [hls, linesTokens_open_key hkey (by simp; omega), hcol, ← hls]
  simpa [linesTokens] using hend

theorem mapping_fit {es : List (String × Value)} (h : Entries es) (hne : es ≠ []) :
    LinesFit [-1] (entriesLines 0 es) := by
  obtain ⟨l, ls, hls⟩ := List.exists_cons_of_ne_nil (h.lines_ne_nil hne 0)
  obtain ⟨hcol, hkey⟩ := h.lines_head 0 l (by simp [hls])
  have hfit := entries_fit h (c := 0) (S := [-1]) (R := []) trivial (by simp)
  rw [List.append_nil] at hfit
  rw [hls, LinesFit.open_key hkey (by simp; omega), hcol, ← hls]
  exact_mod_cast hfit

/-! ### The text may stand in a YAML stream -/

theorem printable_of_escapeOf {e : Char} (h : escapeOf e ≠ .unknown) : isPrintable e = true := by
  unfold escapeOf at h
  split at h <;> first | decide | exact absurd rfl h

theorem Char.le_iff_toNat_le {a b : Char} : a ≤ b ↔ a.toNat ≤ b.toNat := UInt32.le_iff_toNat_le

theorem printable_of_hexValue {c : Char} {d : Nat} (h : hexValue c = some d) :
    isPrintable c = true := by
  unfold hexValue at h
  simp only [isPrintable, Bool.or_eq_true, Bool.and_eq_true, beq_iff_eq, decide_eq_true_eq]
  split at h
  · simp only [Bool.and_eq_true, decide_eq_true_eq, Char.le_iff_toNat_le] at *
    simp at *
    omega
  · split at h
    · simp only [Bool.and_eq_true, decide_eq_true_eq, Char.le_iff_toNat_le] at *
      simp at *
      omega
    · split at h
      · simp only [Bool.and_eq_true, decide_eq_true_eq, Char.le_iff_toNat_le] at *
        simp at *
        omega
      · cases h

theorem hexNumber_printable {l : List Char} {v n : Nat}
    (h : l.foldlM (fun value c => (hexValue c).map (value * 16 + ·)) v = some n) :
    ∀ c ∈ l, isPrintable c = true := by
  induction l generalizing v with
  | nil => simp
  | cons c l ih =>
    simp only [List.foldlM_cons] at h
    cases hc : hexValue c with
    | none => simp [hc] at h
    | some d =>
      intro x hx
      rcases List.mem_cons.mp hx with rfl | hx
      · exact printable_of_hexValue hc
      · exact ih (by simpa [hc] using h) x hx

theorem escapeChar_printable (c : Char) : ∀ d ∈ (escapeChar c).toList, isPrintable d = true := by
  rcases escapeChar_cases c with ⟨e, he, hesc, -⟩ | ⟨e, w, he, hesc, -, -, -⟩
  · have : isPrintable e = true := printable_of_escapeOf (by simp [hesc])
    simp [he, this]
    decide
  · have : isPrintable e = true := printable_of_escapeOf (by simp [hesc])
    have hhex := hexNumber_printable (hexNumber_hexDigits w c.toNat)
    intro d hd
    rw [he] at hd
    rcases List.mem_cons.mp hd with rfl | hd
    · decide
    rcases List.mem_cons.mp hd with rfl | hd
    · exact this
    · exact hhex d hd

theorem standsUnescaped_printable {c : Char} (h : standsUnescaped c = true) :
    isPrintable c = true := by
  simp only [standsUnescaped, Bool.and_eq_true, Bool.or_eq_true, decide_eq_true_eq,
    Bool.not_eq_true', bne_iff_ne, ne_eq] at h
  simp only [isPrintable, Bool.or_eq_true, Bool.and_eq_true, beq_iff_eq, decide_eq_true_eq]
  omega

theorem Written.printable {v : Written} (hv : v.Valid) : ∀ c ∈ v.chars, isPrintable c = true := by
  cases v with
  | plain p => exact hv.2.2
  | quoted t =>
    intro c hc
    simp only [Written.chars, doubleQuoted_toList, List.mem_cons, List.mem_append,
      List.mem_flatMap] at hc
    rcases hc with rfl | ⟨d, -, hd⟩ | hc
    · decide
    · unfold quotedChars at hd
      split at hd
      · simp only [List.mem_singleton] at hd
        subst hd
        exact standsUnescaped_printable ‹_›
      · exact escapeChar_printable d c hd
    · simp only [List.not_mem_nil, or_false] at hc
      subst hc
      decide

theorem LinesFit.printable {S : List Int} {ls : List Line} (h : LinesFit S ls) :
    ∀ c ∈ ls.flatMap Line.chars, isPrintable c = true := by
  induction ls generalizing S with
  | nil => simp
  | cons l ls ih =>
    obtain ⟨hl, hls⟩ := h
    have hbody : ∀ c ∈ l.body.chars, isPrintable c = true := by
      obtain ⟨column, body⟩ := l
      cases body with
      | pair k v =>
        intro c hc
        simp only [Body.chars, List.mem_append, List.mem_cons] at hc
        rcases hc with hc | rfl | rfl | hc
        · exact hl.1.valid.2.2 c hc
        · decide
        · decide
        · exact Written.printable hl.2.1 c hc
      | opens k =>
        intro c hc
        simp only [Body.chars, List.mem_append, List.mem_singleton] at hc
        rcases hc with hc | rfl
        · exact hl.valid.2.2 c hc
        · decide
      | item v =>
        intro c hc
        simp only [Body.chars, List.mem_cons] at hc
        rcases hc with rfl | rfl | hc
        · decide
        · decide
        · exact Written.printable hl.2.1 c hc
    intro c hc
    simp only [List.flatMap_cons, List.mem_append, Line.chars, List.mem_replicate,
      List.mem_singleton] at hc
    rcases hc with ((⟨-, rfl⟩ | hc) | rfl) | hc
    · decide
    · exact hbody c hc
    · decide
    · exact ih hls c hc

theorem firstUnprintable_none {cs : List Char} (h : ∀ c ∈ cs, isPrintable c = true) (offset : Nat) :
    firstUnprintable offset cs = none := by
  induction cs generalizing offset with
  | nil => rfl
  | cons c cs ih =>
    simp only [firstUnprintable, h c (by simp), if_true]
    exact ih (fun d hd => h d (by simp [hd])) _

/-- A text of characters that may stand in a YAML stream, not starting with a byte order mark,
is tokenized from its first character. -/
theorem Cursor.start_eq {text : String} (h : ∀ c ∈ text.toList, isPrintable c = true)
    (hb : text.toList.head? ≠ some '\uFEFF') :
    Cursor.start text = .ok
      { text := text.toList.toArray, mark := Mark.origin, offset := 0, queue := [], taken := 0
        indent := -1, indents := [], keyAllowed := false, keys := #[], flowLevel := 0
        started := false } := by
  unfold Cursor.start
  cases hcs : text.toList with
  | nil => rfl
  | cons c cs =>
    have hc : c ≠ '\uFEFF' := by simpa [hcs] using hb
    rw [hcs] at h
    split
    rename_i heq
    split at heq
    · rename_i rest hm
      simp only [List.cons.injEq] at hm
      exact absurd hm.1 hc
    · cases heq
      simp only [firstUnprintable_none h]

/-! ### The tokens of a written mapping -/

/-- A mapping written in block style is tokenized as written: the stream starts, the mapping
opens, its entries give their tokens, and the mapping and the stream end. -/
theorem yields_mapping {es : List (String × Value)} (h : Entries es) (hne : es ≠ []) :
    ∃ s₀, Cursor.start (Value.map es).toYaml = .ok s₀ ∧ s₀.text = (Value.map es).toYaml.toList.toArray ∧
      Yields 1 s₀ (.streamStart :: .blockMappingStart :: (entriesTokens es ++ [.blockEnd, .streamEnd])) := by
  have hfit := mapping_fit h hne
  have htext := toYaml_map_text h
  obtain ⟨r, hsplit, hr, hat⟩ := lines_split hfit
  have hcol : firstColumn (entriesLines 0 es) = 0 := by
    obtain ⟨l, ls, hls⟩ := List.exists_cons_of_ne_nil (h.lines_ne_nil hne 0)
    simp [firstColumn, hls, (h.lines_head 0 l (by simp [hls])).1]
  rw [hcol, List.replicate_zero, List.nil_append] at hsplit
  have hr' : (Value.map es).toYaml.toList = r := htext.trans hsplit
  have hb : (Value.map es).toYaml.toList.head? ≠ some '\uFEFF' := by
    rw [hr']
    intro hh
    exact (hr '\uFEFF' hh).2.2.2.2 rfl
  refine ⟨_, Cursor.start_eq (htext ▸ hfit.printable) hb, rfl, ?_⟩
  refine Yields.fetch (runs_needsMore_empty rfl) (runs_fetchNextToken_start rfl) ?_
  refine Yields.head (runs_needsMore_quiet (by simp) rfl rfl) ⟨_, _, rfl, rfl⟩ ?_
  have hS : StackOk [-1] := ⟨[], rfl, by simp⟩
  rw [← mapping_tokens h hne]
  refine (yields_lines hS ⟨rfl, rfl, ⟨_, rfl, rfl⟩, rfl, rfl⟩ (hat _ ?_ ?_ rfl).before hfit).mono
    (by omega)
  · simp [Cursor.skipped, Cursor.rest, Mark.origin, hr']
  · simp [Cursor.skipped, Mark.origin, hcol]

end ComponentSync.Yaml
